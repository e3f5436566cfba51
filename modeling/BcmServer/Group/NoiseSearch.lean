import BcmServer.Group.OnlineMembers
import BcmServer.Lts.Loop
import BcmServer.Util.Ordered

/-!
# BcmServer.Group.NoiseSearch — the search for noise receivers

`getOnlineUsers` goes round the online users, from the one after `start`, and collects
devices whose client is new enough. It takes the users in batches of `count` devices that
are not excluded; of a user whose device fills a batch the other devices are skipped. A
batch without a device sends it back to the beginning, and it gives up when it gets to
`start` a second time, or when it meets a device that it has collected already.

* `walk`: where the search gets from any position. It is left, or it is sent back to the
  beginning, with what it has looked at collected.
* `ends_iff`: exactly when the search ends. It does not if it keeps being sent back
  without having collected anything and without getting to `start`.
-/

namespace BcmServer.Group

open BcmServer.Util BcmServer.Lts BcmServer.Dispatcher

/-- `UserMap`: the devices of a user are addresses of the user, in the order of a set. A user
whose devices are all offline stays, with no device. -/
structure UserMap where
  entries : List (Bytes × UserSet)
  sorted : entries.Pairwise fun e e' => ¬ bytesLe e'.1 e.1
  uid_eq : ∀ e ∈ entries, ∀ a ∈ e.2, a.uid = e.1
  ordered : ∀ e ∈ entries, e.2.Pairwise fun a b => ¬ bytesLe b.getSerialized a.getSerialized

namespace UserMap

variable (m : UserMap)

/-- The devices of a user -/
def devices (uid : Bytes) : UserSet := (m.entries.lookup uid).getD []

/-- `upper_bound`: the entries after a uid -/
def upperBound (pos : Bytes) : List (Bytes × UserSet) :=
  m.entries.dropWhile fun e => bytesLe e.1 pos

variable {m} {pos : Bytes} {e e' : Bytes × UserSet} {rest : List (Bytes × UserSet)}

theorem le_of_pairwise {l : List (Bytes × UserSet)}
    (h : (l ++ e :: rest).Pairwise fun e e' => ¬ bytesLe e'.1 e.1) (he' : e' ∈ l) :
    bytesLe e'.1 e.1 := by
  have hnot : ¬ bytesLe e.1 e'.1 := (List.pairwise_append.mp h).2.2 e' he' e List.mem_cons_self
  exact (Std.Total.total (r := bytesLe) e'.1 e.1).resolve_right hnot

/-- The entries after an entry -/
theorem upperBound_of_append (pre : List (Bytes × UserSet)) (h : m.entries = pre ++ e :: rest) :
    m.upperBound e.1 = rest := by
  have hsorted := m.sorted
  rw [h] at hsorted
  have hbefore : ∀ x ∈ pre ++ [e], bytesLe x.1 e.1 := by
    intro x hx
    rcases List.mem_append.mp hx with hx | hx
    · exact le_of_pairwise hsorted hx
    · rw [List.mem_singleton.mp hx]
      exact (Std.Total.total (r := bytesLe) e.1 e.1).elim id id
  have hafter : ∀ x ∈ rest, ¬ bytesLe x.1 e.1 :=
    (List.pairwise_cons.mp (List.pairwise_append.mp hsorted).2.1).1
  have hsplit : pre ++ e :: rest = (pre ++ [e]) ++ rest := by simp
  rw [upperBound, h, hsplit, List.dropWhile_append_of_pos (by simpa using hbefore)]
  cases rest with
  | nil => rfl
  | cons x rest => exact List.dropWhile_cons_of_neg (by simpa using hafter x List.mem_cons_self)

theorem exists_append_upperBound (m : UserMap) (pos : Bytes) :
    ∃ pre, m.entries = pre ++ m.upperBound pos ∧ ∀ e ∈ pre, bytesLe e.1 pos :=
  ⟨_, List.takeWhile_append_dropWhile.symm, fun e he => by simpa using List.mem_takeWhile_imp he⟩

theorem mem_upperBound : e ∈ m.upperBound pos ↔ e ∈ m.entries ∧ ¬ bytesLe e.1 pos := by
  obtain ⟨pre, hpre, hle⟩ := m.exists_append_upperBound pos
  have hsorted := m.sorted
  constructor
  · intro he
    refine ⟨hpre ▸ List.mem_append_right pre he, ?_⟩
    obtain ⟨first, rest, hrest⟩ := List.exists_cons_of_ne_nil (List.ne_nil_of_mem he)
    have hfirst : ¬ bytesLe first.1 pos := by
      have hdrop : m.entries.dropWhile (fun e => decide (bytesLe e.1 pos)) = first :: rest := hrest
      have hhead := List.head?_dropWhile_not (fun e => decide (bytesLe e.1 pos)) m.entries
      rw [hdrop] at hhead
      simpa using hhead
    rw [hrest] at he
    rcases List.mem_cons.mp he with rfl | he
    · exact hfirst
    · rw [hpre, hrest] at hsorted
      have hlt := (List.pairwise_cons.mp (List.pairwise_append.mp hsorted).2.1).1 e he
      intro hepos
      have hfe : bytesLe first.1 e.1 :=
        (Std.Total.total (r := bytesLe) first.1 e.1).resolve_right hlt
      exact hfirst (trans_of bytesLe hfe hepos)
  · rintro ⟨he, hpos⟩
    rw [hpre] at he
    exact (List.mem_append.mp he).resolve_left fun hin => hpos (hle e hin)

/-- The devices of a user are those of the entry of the user. -/
theorem mem_devices {uid : Bytes} {a : DispatchAddress} :
    a ∈ m.devices uid ↔ ∃ e ∈ m.entries, e.1 = uid ∧ a ∈ e.2 := by
  have hsorted := m.sorted
  rw [devices]
  generalize m.entries = l at hsorted ⊢
  induction l with
  | nil => simp
  | cons d l ih =>
      obtain ⟨hfirst, hrest⟩ := List.pairwise_cons.mp hsorted
      rw [List.lookup_cons]
      by_cases hd : uid = d.1
      · subst hd
        have hnot : ∀ e ∈ l, e.1 ≠ d.1 := fun e he heq =>
          hfirst e he (heq ▸ refl_of bytesLe _)
        simp only [beq_self_eq_true, Option.getD_some, List.mem_cons, exists_eq_or_imp, true_and]
        exact ⟨Or.inl, fun h => h.resolve_right fun ⟨e, he, heq, _⟩ => hnot e he heq⟩
      · rw [beq_eq_false_iff_ne.mpr hd]
        refine (ih hrest).trans ?_
        simp [Ne.symm hd]

end UserMap

/-- The elements in the order of a set of addresses -/
def inSetOrder (users : UserSet) : UserSet :=
  users.insertionSort fun a b => bytesLe a.getSerialized b.getSerialized

/-- What the search depends on -/
structure NoiseSearch where
  onlineUsers : UserMap
  excludedUids : UserSet
  /-- the session of the device is that of a device with a supported version -/
  supported : DispatchAddress → Bool
  start : Bytes
  count : ℕ

/-- The variables of `getOnlineUsers` -/
structure SearchState where
  pos : Bytes
  bStartOver : Bool := false
  result : UserSet := []
  lastNoiseUid : Bytes := []
deriving DecidableEq, Repr

namespace NoiseSearch

variable (q : NoiseSearch)

/-- A batch from a position: at most `b` devices that are not excluded, and the last user that was
gone through -/
def batch : ℕ → Bytes → List (Bytes × UserSet) → UserSet × Bytes
  | 0, pos, _ => ([], pos)
  | _ + 1, pos, [] => ([], pos)
  | b + 1, _, (uid, devices) :: rest =>
      let users := (devices.filter (· ∉ q.excludedUids)).take (b + 1)
      let r := batch (b + 1 - users.length) uid rest
      (users ++ r.1, r.2)

/-- The loop over the candidates, and whether the function returns in it -/
def insertCandidates : UserSet → SearchState → Bool × SearchState
  | [], s => (false, s)
  | id :: ids, s =>
      if id ∈ s.result then (true, s)
      else
        let s := { s with result := s.result ++ [id], lastNoiseUid := id.uid }
        if q.count ≤ s.result.length then (true, s) else insertCandidates ids s

/-- A round of the loop, and whether the loop is left -/
def round (s : SearchState) : Bool × SearchState :=
  if s.bStartOver && bytesLe q.start s.pos then (true, s)
  else if q.onlineUsers.entries.isEmpty then (true, { s with result := [] })
  else
    let r := q.batch q.count s.pos (q.onlineUsers.upperBound s.pos)
    if r.1.isEmpty then (false, { s with pos := [], bStartOver := true })
    else q.insertCandidates ((inSetOrder r.1).filter q.supported) { s with pos := r.2 }

/-- The state at the beginning -/
def init : SearchState := { pos := q.start }

/-- What is looked at when all these users are gone through in batches, with room for `b` devices in
the batch under way, and the room that is left in the last batch -/
def pass : ℕ → List (Bytes × UserSet) → UserSet × ℕ
  | b, [] => ([], b)
  | b, (_, devices) :: rest =>
      let users := (devices.filter (· ∉ q.excludedUids)).take b
      let left := b - users.length
      let r := pass (if left = 0 then q.count else left) rest
      (users ++ r.1, r.2)

/-- A pass from the beginning -/
def firstPass : UserSet × ℕ := q.pass q.count (q.onlineUsers.upperBound [])

/-! ## A batch -/

variable {q} {b : ℕ} {pos : Bytes} {l : List (Bytes × UserSet)} {r : UserSet × Bytes}

/-- How a batch with room for `b` devices can end: a device of the last user has filled it, or
there are no more users. In both cases it is a part of the pass. -/
inductive BatchEnd (q : NoiseSearch) (b : ℕ) (pos : Bytes) (l : List (Bytes × UserSet))
    (r : UserSet × Bytes) : Prop
  | full (front : List (Bytes × UserSet)) (e : Bytes × UserSet) (rest : List (Bytes × UserSet))
      (split : l = front ++ e :: rest) (last : r.2 = e.1) (ne_nil : r.1 ≠ [])
      (taken : ∃ a ∈ e.2, a ∉ q.excludedUids)
      (pass : q.pass b l = (r.1 ++ (q.pass q.count rest).1, (q.pass q.count rest).2))
  | short (room : r.1.length < b) (last : r.2 = (l.getLast?.map Prod.fst).getD pos)
      (all : ∀ e ∈ l, ∀ a ∈ e.2, a ∉ q.excludedUids → a ∈ r.1)
      (pass : q.pass b l = (r.1, b - r.1.length))

theorem batch_zero (pos : Bytes) (l : List (Bytes × UserSet)) : q.batch 0 pos l = ([], pos) := by
  cases l <;> rfl

theorem batch_end (hb : 0 < b) (pos : Bytes) (l : List (Bytes × UserSet)) :
    BatchEnd q b pos l (q.batch b pos l) := by
  obtain ⟨b, rfl⟩ := Nat.exists_eq_add_of_lt hb
  rw [Nat.zero_add] at hb ⊢
  induction l generalizing b pos with
  | nil => exact .short hb rfl (fun e he => absurd he List.not_mem_nil) rfl
  | cons d rest ih =>
      obtain ⟨uid, devices⟩ := d
      simp only [batch]
      generalize husers : (devices.filter (· ∉ q.excludedUids)).take (b + 1) = users
      have hlen : users.length ≤ b + 1 := husers ▸ List.length_take_le _ _
      have hmem : ∀ a ∈ users, a ∈ devices ∧ a ∉ q.excludedUids := by
        intro a ha
        rw [← husers] at ha
        simpa using List.mem_of_mem_take ha
      have hpass : q.pass (b + 1) ((uid, devices) :: rest) =
          (users ++ (q.pass (if b + 1 - users.length = 0 then q.count else b + 1 - users.length)
            rest).1, (q.pass (if b + 1 - users.length = 0 then q.count
              else b + 1 - users.length) rest).2) := by
        simp only [pass, husers]
      by_cases hfull : b + 1 - users.length = 0
      · -- the batch is full after this user
        have hne : users ≠ [] := by
          rintro rfl
          simp at hfull
        rw [hfull, if_pos rfl] at hpass
        rw [hfull, batch, List.append_nil]
        obtain ⟨a, ha⟩ := List.exists_mem_of_ne_nil users hne
        exact .full [] (uid, devices) rest rfl rfl hne ⟨a, hmem a ha⟩ hpass
      · obtain ⟨left, hleft⟩ := Nat.exists_eq_add_one_of_ne_zero hfull
        rw [if_neg hfull, hleft] at hpass
        rw [hleft]
        -- no device of this user is left out
        have hdevices : ∀ a ∈ devices, a ∉ q.excludedUids → a ∈ users := by
          intro a ha hnot
          have hall : users = devices.filter (· ∉ q.excludedUids) := by
            rw [← husers, List.take_of_length_le]
            rw [← husers, List.length_take] at hleft
            omega
          rw [hall]
          simpa using ⟨ha, hnot⟩
        cases ih uid left (Nat.succ_pos left) with
        | full front e rest' split last ne_nil taken pass =>
            refine .full ((uid, devices) :: front) e rest' (by rw [split, List.cons_append]) last
              (List.append_ne_nil_of_right_ne_nil _ ne_nil) taken ?_
            rw [hpass, pass, List.append_assoc]
        | short room last all pass =>
            refine .short ?_ ?_ ?_ ?_
            · rw [List.length_append]
              omega
            · rw [last, List.getLast?_cons]
              cases rest.getLast? <;> rfl
            · intro e he a ha hnot
              rcases List.mem_cons.mp he with rfl | he
              · exact List.mem_append_left _ (hdevices a ha hnot)
              · exact List.mem_append_right _ (all e he a ha hnot)
            · rw [hpass, pass, List.length_append]
              congr 1
              omega

/-- What is in a batch is online and not excluded. -/
theorem mem_batch {a : DispatchAddress} (h : a ∈ (q.batch b pos l).1) :
    (∃ e ∈ l, a ∈ e.2) ∧ a ∉ q.excludedUids := by
  induction l generalizing b pos with
  | nil => cases b <;> exact absurd h List.not_mem_nil
  | cons d rest ih =>
      cases b with
      | zero => exact absurd h List.not_mem_nil
      | succ b =>
          rcases List.mem_append.mp h with ha | ha
          · have hfilter := List.mem_of_mem_take ha
            rw [List.mem_filter, decide_eq_true_iff] at hfilter
            exact ⟨⟨d, List.mem_cons_self, hfilter.1⟩, hfilter.2⟩
          · obtain ⟨⟨e, he, hae⟩, hnot⟩ := ih ha
            exact ⟨⟨e, List.mem_cons_of_mem d he, hae⟩, hnot⟩

/-- How a batch from a position ends, if it is not empty: what is left is after its last user, and
what it has gone through is a part of the pass. -/
inductive Progress (q : NoiseSearch) (pos : Bytes) (r : UserSet × Bytes) : Prop
  | full (last : ∃ e ∈ q.onlineUsers.entries, r.2 = e.1 ∧ ∃ a ∈ e.2, a ∉ q.excludedUids)
      (shorter : (q.onlineUsers.upperBound r.2).length < (q.onlineUsers.upperBound pos).length)
      (pass : q.pass q.count (q.onlineUsers.upperBound pos) =
        (r.1 ++ (q.pass q.count (q.onlineUsers.upperBound r.2)).1,
          (q.pass q.count (q.onlineUsers.upperBound r.2)).2))
  | short (last : ∃ e ∈ q.onlineUsers.entries, r.2 = e.1)
      (shorter : (q.onlineUsers.upperBound r.2).length < (q.onlineUsers.upperBound pos).length)
      (rest : q.onlineUsers.upperBound r.2 = [])
      (pass : q.pass q.count (q.onlineUsers.upperBound pos) = (r.1, q.count - r.1.length))

theorem batch_progress (hcount : 0 < q.count) (pos : Bytes)
    (hne : (q.batch q.count pos (q.onlineUsers.upperBound pos)).1 ≠ []) :
    Progress q pos (q.batch q.count pos (q.onlineUsers.upperBound pos)) := by
  obtain ⟨⟨d, hd, -⟩, -⟩ := mem_batch (List.exists_mem_of_ne_nil _ hne).choose_spec
  obtain ⟨pre, hpre, -⟩ := q.onlineUsers.exists_append_upperBound pos
  have hbatch := batch_end (q := q) hcount pos (q.onlineUsers.upperBound pos)
  generalize q.batch q.count pos (q.onlineUsers.upperBound pos) = r at *
  -- the users after one of those that are gone through
  have hafter : ∀ front e rest, q.onlineUsers.upperBound pos = front ++ e :: rest →
      e ∈ q.onlineUsers.entries ∧ q.onlineUsers.upperBound e.1 = rest := by
    intro front e rest hsplit
    have hentries : q.onlineUsers.entries = (pre ++ front) ++ e :: rest := by
      rw [hpre, hsplit, List.append_assoc]
    exact ⟨hentries ▸ List.mem_append_right _ List.mem_cons_self,
      UserMap.upperBound_of_append _ hentries⟩
  cases hbatch with
  | full front e rest split last ne_nil taken pass =>
      obtain ⟨he, hrest⟩ := hafter front e rest split
      rw [← last] at hrest
      refine .full ⟨e, he, last, taken⟩ ?_ (hrest ▸ pass)
      rw [hrest, split, List.length_append, List.length_cons]
      omega
  | short room last all pass =>
      obtain ⟨front, x, hx⟩ := (List.eq_nil_or_concat _).resolve_left (List.ne_nil_of_mem hd)
      rw [List.concat_eq_append] at hx
      rw [hx, List.getLast?_concat] at last
      obtain ⟨he, hrest⟩ := hafter front x [] hx
      have hrest' : q.onlineUsers.upperBound r.2 = [] := by rw [last]; exact hrest
      refine .short ⟨x, he, last⟩ ?_ hrest' pass
      rw [hrest']
      exact List.length_pos_of_mem hd

namespace Progress

theorem shorter (h : Progress q pos r) :
    (q.onlineUsers.upperBound r.2).length < (q.onlineUsers.upperBound pos).length := by
  cases h with
  | full _ shorter _ => exact shorter
  | short _ shorter _ _ => exact shorter

/-- The batch is a part of the pass, and the rest is what the batches after it look at. -/
theorem mem_pass (h : Progress q pos r) {a : DispatchAddress}
    (ha : a ∈ (q.pass q.count (q.onlineUsers.upperBound pos)).1) :
    a ∈ r.1 ∨ a ∈ (q.pass q.count (q.onlineUsers.upperBound r.2)).1 := by
  cases h with
  | full _ _ pass =>
      rw [pass] at ha
      exact List.mem_append.mp ha
  | short _ _ _ pass =>
      rw [pass] at ha
      exact Or.inl ha

theorem mem_pass_of_batch (h : Progress q pos r) {a : DispatchAddress} (ha : a ∈ r.1) :
    a ∈ (q.pass q.count (q.onlineUsers.upperBound pos)).1 := by
  cases h with
  | full _ _ pass =>
      rw [pass]
      exact List.mem_append_left _ ha
  | short _ _ _ pass =>
      rw [pass]
      exact ha

theorem mem_pass_of_next (h : Progress q pos r) {a : DispatchAddress}
    (ha : a ∈ (q.pass q.count (q.onlineUsers.upperBound r.2)).1) :
    a ∈ (q.pass q.count (q.onlineUsers.upperBound pos)).1 := by
  cases h with
  | full _ _ pass =>
      rw [pass]
      exact List.mem_append_right _ ha
  | short _ _ rest _ =>
      rw [rest] at ha
      exact absurd ha List.not_mem_nil

/-- The room that is left in the last batch -/
theorem room (h : Progress q pos r)
    (hlt : (q.pass q.count (q.onlineUsers.upperBound pos)).2 < q.count) :
    q.onlineUsers.upperBound r.2 = [] ∨
      (q.pass q.count (q.onlineUsers.upperBound r.2)).2 < q.count := by
  cases h with
  | full _ _ pass =>
      rw [pass] at hlt
      exact Or.inr hlt
  | short _ _ rest _ => exact Or.inl rest

end Progress

theorem mem_inSetOrder {users : UserSet} {a : DispatchAddress} : a ∈ inSetOrder users ↔ a ∈ users :=
  (List.perm_insertionSort _ users).mem_iff

/-! ## The candidates -/

theorem insertCandidates_pos (ids : UserSet) (s : SearchState) :
    (q.insertCandidates ids s).2.pos = s.pos ∧
      (q.insertCandidates ids s).2.bStartOver = s.bStartOver := by
  induction ids generalizing s with
  | nil => exact ⟨rfl, rfl⟩
  | cons id ids ih =>
      simp only [insertCandidates]
      split
      · exact ⟨rfl, rfl⟩
      · split
        · exact ⟨rfl, rfl⟩
        · exact ih _

/-- If the function goes on, all candidates are new and have been collected. -/
theorem result_of_insertCandidates {ids : UserSet} {s : SearchState}
    (h : (q.insertCandidates ids s).1 = false) :
    (q.insertCandidates ids s).2.result = s.result ++ ids ∧ ∀ a ∈ ids, a ∉ s.result := by
  induction ids generalizing s with
  | nil => exact ⟨(List.append_nil _).symm, fun a ha => absurd ha List.not_mem_nil⟩
  | cons id ids ih =>
      simp only [insertCandidates] at h ⊢
      by_cases hid : id ∈ s.result
      · rw [if_pos hid] at h
        cases h
      · rw [if_neg hid] at h ⊢
        by_cases hcount : q.count ≤ (s.result ++ [id]).length
        · rw [if_pos hcount] at h
          cases h
        · rw [if_neg hcount] at h ⊢
          obtain ⟨hresult, hnew⟩ := ih h
          refine ⟨by rw [hresult, List.append_assoc, List.singleton_append], fun a ha => ?_⟩
          rcases List.mem_cons.mp ha with rfl | ha
          · exact hid
          · exact fun hmem => hnew a ha (List.mem_append_left [id] hmem)

/-! ## The rounds -/

variable {s s' t : SearchState}

theorem round_of_found (hstart : s.bStartOver = true) (hpos : bytesLe q.start s.pos) :
    (q.round s).1 = true := by
  rw [round, hstart, decide_eq_true hpos]
  rfl

theorem round_of_empty (h : ¬ (s.bStartOver = true ∧ bytesLe q.start s.pos))
    (hne : q.onlineUsers.entries ≠ [])
    (hempty : (q.batch q.count s.pos (q.onlineUsers.upperBound s.pos)).1 = []) :
    q.round s = (false, { s with pos := [], bStartOver := true }) := by
  rw [round, if_neg (by simpa using h), if_neg (by simpa using hne)]
  simp only [hempty, List.isEmpty_nil, if_true]

theorem round_of_batch (h : ¬ (s.bStartOver = true ∧ bytesLe q.start s.pos))
    (hne : q.onlineUsers.entries ≠ [])
    (hbatch : (q.batch q.count s.pos (q.onlineUsers.upperBound s.pos)).1 ≠ []) :
    q.round s = q.insertCandidates
      ((inSetOrder (q.batch q.count s.pos (q.onlineUsers.upperBound s.pos)).1).filter q.supported)
      { s with pos := (q.batch q.count s.pos (q.onlineUsers.upperBound s.pos)).2 } := by
  rw [round, if_neg (by simpa using h), if_neg (by simpa using hne)]
  exact if_neg (by simpa using hbatch)

theorem round_of_nobody (h : q.onlineUsers.entries = []) : (q.round s).1 = true := by
  rw [round]
  split
  · rfl
  · rw [h]
    rfl

/-- The search that is at `s` is left, or it comes to `t`, at the beginning again. By then it has
collected what a pass from `s` looks at. If it is the second time round, it has not come to
`start`. -/
structure SentBack (q : NoiseSearch) (s t : SearchState) : Prop where
  startOver : t.bStartOver = true
  pos : t.pos = []
  ends : Ends q.round t → Ends q.round s
  collected : ∀ a ∈ s.result, a ∈ t.result
  looked : ∀ a ∈ (q.pass q.count (q.onlineUsers.upperBound s.pos)).1, q.supported a →
    a ∉ s.result ∧ a ∈ t.result
  before : s.bStartOver = true → ∀ e ∈ q.onlineUsers.upperBound s.pos, ∀ a ∈ e.2,
    a ∉ q.excludedUids → ¬ bytesLe q.start e.1
  filled : s.bStartOver = true → (q.pass q.count (q.onlineUsers.upperBound s.pos)).2 < q.count →
    ∀ e ∈ q.onlineUsers.upperBound s.pos, ¬ bytesLe q.start e.1

/-- A batch before the way that is left -/
theorem SentBack.of_next {users : UserSet} (h : SentBack q s' t)
    (hends : Ends q.round s' → Ends q.round s) (hstart : s'.bStartOver = s.bStartOver)
    (hresult : s'.result = s.result ++ (inSetOrder users).filter q.supported)
    (hnew : ∀ a ∈ (inSetOrder users).filter q.supported, a ∉ s.result)
    (hpass : ∀ a ∈ (q.pass q.count (q.onlineUsers.upperBound s.pos)).1,
      a ∈ users ∨ a ∈ (q.pass q.count (q.onlineUsers.upperBound s'.pos)).1)
    (hroom : (q.pass q.count (q.onlineUsers.upperBound s.pos)).2 < q.count →
      q.onlineUsers.upperBound s'.pos = [] ∨
        (q.pass q.count (q.onlineUsers.upperBound s'.pos)).2 < q.count)
    (hbefore : s.bStartOver = true → ∀ e ∈ q.onlineUsers.upperBound s.pos,
      e ∈ q.onlineUsers.upperBound s'.pos ∨ ¬ bytesLe q.start e.1) : SentBack q s t where
  startOver := h.startOver
  pos := h.pos
  ends := fun ht => hends (h.ends ht)
  collected a ha := h.collected a (hresult ▸ List.mem_append_left _ ha)
  looked a ha hsupported := by
    rcases hpass a ha with ha | ha
    · have hcand : a ∈ (inSetOrder users).filter q.supported :=
        List.mem_filter.mpr ⟨mem_inSetOrder.mpr ha, hsupported⟩
      exact ⟨hnew a hcand, h.collected a (hresult ▸ List.mem_append_right _ hcand)⟩
    · obtain ⟨hnot, hmem⟩ := h.looked a ha hsupported
      exact ⟨fun hold => hnot (hresult ▸ List.mem_append_left _ hold), hmem⟩
  before hs e he a ha hnot := by
    rcases hbefore hs e he with he | hlt
    · exact h.before (hstart.trans hs) e he a ha hnot
    · exact hlt
  filled hs hlt e he := by
    rcases hbefore hs e he with he | hlt'
    · rcases hroom hlt with hnil | hlt
      · rw [hnil] at he
        exact absurd he List.not_mem_nil
      · exact h.filled (hstart.trans hs) hlt e he
    · exact hlt'

/-- An empty batch: there is nothing to look at from `s` on. -/
theorem sentBack_of_empty (hcount : 0 < q.count) (hne : q.onlineUsers.entries ≠ [])
    (h : ¬ (s.bStartOver = true ∧ bytesLe q.start s.pos))
    (hempty : (q.batch q.count s.pos (q.onlineUsers.upperBound s.pos)).1 = []) :
    SentBack q s { s with pos := [], bStartOver := true } := by
  have hround := round_of_empty h hne hempty
  cases batch_end (q := q) hcount s.pos (q.onlineUsers.upperBound s.pos) with
  | full front e rest split last ne_nil taken pass => exact absurd hempty ne_nil
  | short room last all pass =>
      rw [hempty] at all pass
      refine ⟨rfl, rfl, fun ht => ?_, fun a ha => ha, fun a ha => ?_,
        fun _ e he a ha hnot => absurd (all e he a ha hnot) List.not_mem_nil, fun _ hlt => ?_⟩
      · refine (ends_next_iff (by rw [hround])).mpr ?_
        rwa [hround]
      · rw [pass] at ha
        exact absurd ha List.not_mem_nil
      · rw [pass] at hlt
        exact absurd hlt (Nat.lt_irrefl _)

/-- Where the search gets from any position. The induction is on the users that are left. -/
theorem walk (hcount : 0 < q.count) (hne : q.onlineUsers.entries ≠ []) (s : SearchState) :
    Ends q.round s ∨ ∃ t, SentBack q s t := by
  generalize hn : (q.onlineUsers.upperBound s.pos).length = n
  induction n using Nat.strong_induction_on generalizing s with
  | _ n ih =>
    by_cases hfound : s.bStartOver = true ∧ bytesLe q.start s.pos
    · exact Or.inl (ends_of_left (round_of_found hfound.1 hfound.2))
    by_cases hempty : (q.batch q.count s.pos (q.onlineUsers.upperBound s.pos)).1 = []
    · exact Or.inr ⟨_, sentBack_of_empty hcount hne hfound hempty⟩
    have hround := round_of_batch hfound hne hempty
    have hprogress := batch_progress hcount s.pos hempty
    generalize q.batch q.count s.pos (q.onlineUsers.upperBound s.pos) = r at *
    cases hret : (q.round s).1 with
    | true => exact Or.inl (ends_of_left hret)
    | false =>
      have hends := ends_next_iff hret
      obtain ⟨hpos, hstart⟩ := insertCandidates_pos (q := q)
        ((inSetOrder r.1).filter q.supported) { s with pos := r.2 }
      rw [hround] at hret
      obtain ⟨hresult, hnew⟩ := result_of_insertCandidates hret
      rw [← hround] at hpos hstart hresult
      generalize (q.round s).2 = s' at *
      by_cases hstop : s.bStartOver = true ∧ bytesLe q.start r.2
      · -- the batch has come to `start`
        refine Or.inl (hends.mpr (ends_of_left (round_of_found (hstart.trans hstop.1) ?_)))
        rw [hpos]
        exact hstop.2
      have hbelow : s.bStartOver = true → ∀ e ∈ q.onlineUsers.upperBound s.pos,
          e ∈ q.onlineUsers.upperBound r.2 ∨ ¬ bytesLe q.start e.1 := by
        intro hs e he
        by_cases hle : bytesLe e.1 r.2
        · exact Or.inr fun hge => hstop ⟨hs, trans_of bytesLe hge hle⟩
        · exact Or.inl (UserMap.mem_upperBound.mpr ⟨(UserMap.mem_upperBound.mp he).1, hle⟩)
      rcases ih _ (hn ▸ hprogress.shorter) s' (by rw [hpos]) with hleft | ⟨t, ht⟩
      · exact Or.inl (hends.mpr hleft)
      · refine Or.inr ⟨t, ht.of_next hends.mpr hstart hresult hnew ?_ ?_ ?_⟩ <;> rw [hpos]
        · exact fun a => hprogress.mem_pass
        · exact hprogress.room
        · exact hbelow

/-! ## Exactly when the search ends -/

/-- Nobody is online; or the search begins at the beginning; or there is a device to look at from
`start` on; or a supported one is looked at on the way; or there is a user from `start` on, though
without such a device, and the last batch of the way is not full. -/
def CanEnd (q : NoiseSearch) : Prop :=
  q.onlineUsers.entries = [] ∨ q.start = [] ∨
    (∃ e ∈ q.onlineUsers.entries, bytesLe q.start e.1 ∧ ∃ a ∈ e.2, a ∉ q.excludedUids) ∨
    (∃ a ∈ q.firstPass.1, q.supported a) ∨
    ((∃ e ∈ q.onlineUsers.entries, bytesLe q.start e.1) ∧ q.firstPass.2 < q.count)

theorem nil_bytesLe (uid : Bytes) : bytesLe [] uid := by
  cases uid with
  | nil => exact refl_of bytesLe _
  | cons c uid => exact le_of_lt (List.nil_lt_cons _ _)

theorem mem_upperBound_nil {e : Bytes × UserSet} (hstart : q.start ≠ [])
    (he : e ∈ q.onlineUsers.entries) (hle : bytesLe q.start e.1) :
    e ∈ q.onlineUsers.upperBound [] :=
  UserMap.mem_upperBound.mpr ⟨he, fun hnil =>
    hstart (antisymm_of bytesLe (trans_of bytesLe hle hnil) (nil_bytesLe _))⟩

theorem ends_of_canEnd (hcount : 0 < q.count) (h : q.CanEnd) : Ends q.round q.init := by
  by_cases hne : q.onlineUsers.entries = []
  · exact ends_of_left (round_of_nobody hne)
  rcases walk hcount hne q.init with hends | ⟨t, ht⟩
  · exact hends
  by_cases hstart : q.start = []
  · refine ht.ends (ends_of_left (round_of_found ht.startOver ?_))
    rw [hstart, ht.pos]
    exact refl_of bytesLe _
  refine ht.ends ?_
  rcases walk hcount hne t with hends | ⟨t', ht'⟩
  · exact hends
  have hlooked := ht'.looked
  have hbefore := ht'.before ht.startOver
  have hfilled := ht'.filled ht.startOver
  rw [ht.pos] at hlooked hbefore hfilled
  rcases h with hnil | hnil | ⟨e, he, hle, a, ha, hnot⟩ | ⟨a, ha, hsupported⟩ |
    ⟨⟨e, he, hle⟩, hroom⟩
  · exact absurd hnil hne
  · exact absurd hnil hstart
  · exact absurd hle (hbefore e (mem_upperBound_nil hstart he hle) a ha hnot)
  · -- the device has been collected when the search meets it again
    have hmem : a ∈ t'.result := (hlooked a ha hsupported).2
    refine ht'.ends ?_
    rcases walk hcount hne t' with hends | ⟨t'', ht''⟩
    · exact hends
    · refine absurd hmem (ht''.looked a ?_ hsupported).1
      rw [ht'.pos]
      exact ha
  · exact absurd hle (hfilled hroom e (mem_upperBound_nil hstart he hle))

/-- A state from which the search only gets sent back -/
structure Stuck (q : NoiseSearch) (s : SearchState) : Prop where
  first : s.bStartOver = false → s.pos = q.start
  below : s.bStartOver = true → ¬ bytesLe q.start s.pos
  unsupported : s.bStartOver = true →
    ∀ a ∈ (q.pass q.count (q.onlineUsers.upperBound s.pos)).1, ¬ q.supported a
  filled : s.bStartOver = true →
    (q.pass q.count (q.onlineUsers.upperBound s.pos)).2 < q.count →
      ∀ e ∈ q.onlineUsers.entries, ¬ bytesLe q.start e.1

theorem stuck_step (hcount : 0 < q.count) (h : ¬ q.CanEnd) (hs : Stuck q s) :
    (q.round s).1 = false ∧ Stuck q (q.round s).2 := by
  simp only [CanEnd, not_or, not_exists, not_and] at h
  obtain ⟨hne, hstart, hexcluded, hunsupported, hfilled⟩ := h
  have hback : Stuck q { s with pos := [], bStartOver := true } := by
    refine ⟨fun hfalse => absurd hfalse (by simp), fun _ hle => hstart ?_,
      fun _ => hunsupported, fun _ hlt e he hle => hfilled ⟨e, he, hle⟩ hlt⟩
    exact antisymm_of bytesLe hle (nil_bytesLe _)
  have hsearch : ¬ (s.bStartOver = true ∧ bytesLe q.start s.pos) := fun ⟨hb, hle⟩ => hs.below hb hle
  by_cases hempty : (q.batch q.count s.pos (q.onlineUsers.upperBound s.pos)).1 = []
  · rw [round_of_empty hsearch hne hempty]
    exact ⟨rfl, hback⟩
  obtain ⟨a, ha⟩ := List.exists_mem_of_ne_nil _ hempty
  obtain ⟨⟨d, hd, had⟩, hnot⟩ := mem_batch ha
  cases hb : s.bStartOver with
  | false =>
      -- the users after `start` have no device to look at
      obtain ⟨hmem, hlt⟩ := UserMap.mem_upperBound.mp hd
      rw [hs.first hb] at hlt
      have hle : bytesLe q.start d.1 :=
        (Std.Total.total (r := bytesLe) q.start d.1).resolve_right hlt
      exact absurd hnot (hexcluded d hmem hle a had)
  | true =>
      have hround := round_of_batch hsearch hne hempty
      have hprogress := batch_progress hcount s.pos hempty
      have hpassed := hs.unsupported hb
      have hroom := hs.filled hb
      generalize q.batch q.count s.pos (q.onlineUsers.upperBound s.pos) = r at *
      have hcands : (inSetOrder r.1).filter q.supported = [] :=
        List.filter_eq_nil_iff.mpr fun x hx =>
          hpassed x (hprogress.mem_pass_of_batch (mem_inSetOrder.mp hx))
      rw [hround, hcands, insertCandidates]
      have hbelow : ¬ bytesLe q.start r.2 ∧
          ((q.pass q.count (q.onlineUsers.upperBound r.2)).2 < q.count →
            ∀ e ∈ q.onlineUsers.entries, ¬ bytesLe q.start e.1) := by
        cases hprogress with
        | full last _ pass =>
            obtain ⟨e, he, hlast, c, hc, hfree⟩ := last
            rw [pass] at hroom
            refine ⟨fun hle => ?_, hroom⟩
            exact hfree (by_contra (hexcluded e he (hlast ▸ hle) c hc))
        | short last _ _ pass =>
            -- the batch is not full: all users are before `start`
            obtain ⟨e, he, hlast⟩ := last
            have hall : ∀ e ∈ q.onlineUsers.entries, ¬ bytesLe q.start e.1 := by
              refine hroom ?_
              rw [pass]
              have hlen := List.length_pos_of_mem ha
              dsimp only
              omega
            exact ⟨hlast ▸ hall e he, fun _ => hall⟩
      exact ⟨rfl, fun hfalse => absurd (hb.symm.trans hfalse) (by simp), fun _ => hbelow.1,
        fun _ a ha => hpassed a (hprogress.mem_pass_of_next ha), fun _ => hbelow.2⟩

/-- The search ends if and only if it can. -/
theorem ends_iff (hcount : 0 < q.count) : Ends q.round q.init ↔ q.CanEnd := by
  refine ⟨fun hends => ?_, ends_of_canEnd hcount⟩
  by_contra hnot
  refine not_ends (fun s hs => stuck_step hcount hnot hs) ?_ hends
  exact ⟨fun _ => rfl, fun h => absurd h (by simp [init]), fun h => absurd h (by simp [init]),
    fun h => absurd h (by simp [init])⟩

/-! ## What is found -/

/-- A device that may be collected: it is online under a uid, not excluded, and supported. -/
structure Eligible (q : NoiseSearch) (a : DispatchAddress) : Prop where
  online : ∃ e ∈ q.onlineUsers.entries, a ∈ e.2
  uid_ne : a.uid ≠ []
  notExcluded : a ∉ q.excludedUids
  supported : q.supported a = true

/-- At most `count` devices are collected, all of them eligible. -/
structure Collected (q : NoiseSearch) (s : SearchState) : Prop where
  length_le : s.result.length ≤ q.count
  nodup : s.result.Nodup
  eligible : ∀ a ∈ s.result, Eligible q a

theorem eligible_of_candidate {a : DispatchAddress} (h : a ∈ (inSetOrder (q.batch b pos
    (q.onlineUsers.upperBound pos)).1).filter q.supported) : Eligible q a := by
  obtain ⟨hmem, hsupported⟩ := List.mem_filter.mp h
  obtain ⟨⟨e, he, hae⟩, hnot⟩ := mem_batch (mem_inSetOrder.mp hmem)
  obtain ⟨hentry, hlt⟩ := UserMap.mem_upperBound.mp he
  refine ⟨⟨e, hentry, hae⟩, fun hnil => hlt ?_, hnot, hsupported⟩
  rw [← q.onlineUsers.uid_eq e hentry a hae, hnil]
  exact nil_bytesLe _

theorem Collected.insertCandidates {ids : UserSet} (h : Collected q s)
    (hroom : s.result.length < q.count) (hids : ∀ a ∈ ids, Eligible q a) :
    Collected q (q.insertCandidates ids s).2 ∧ ((q.insertCandidates ids s).1 = false →
      (q.insertCandidates ids s).2.result.length < q.count) := by
  induction ids generalizing s with
  | nil => exact ⟨h, fun _ => hroom⟩
  | cons id ids ih =>
      simp only [NoiseSearch.insertCandidates]
      by_cases hid : id ∈ s.result
      · rw [if_pos hid]
        exact ⟨h, fun hfalse => absurd hfalse (by simp)⟩
      · rw [if_neg hid]
        have hlen : (s.result ++ [id]).length = s.result.length + 1 := List.length_append
        have hcollected : Collected q
            { s with result := s.result ++ [id], lastNoiseUid := id.uid } := by
          refine ⟨hlen ▸ hroom, List.nodup_append.mpr ⟨h.nodup, List.nodup_singleton id, ?_⟩, ?_⟩
          · intro a ha c hc hac
            rw [List.mem_singleton.mp hc] at hac
            exact hid (hac ▸ ha)
          · intro a ha
            rcases List.mem_append.mp ha with ha | ha
            · exact h.eligible a ha
            · exact hids a (by simpa using Or.inl ha)
        split
        · exact ⟨hcollected, fun hfalse => absurd hfalse (by simp)⟩
        · next hfew =>
          exact ih hcollected (Nat.not_le.mp hfew) fun a ha => hids a (List.mem_cons_of_mem id ha)

theorem Collected.of_empty (h : s.result = []) : Collected q s := by
  refine ⟨?_, ?_, ?_⟩ <;> rw [h]
  · exact Nat.zero_le _
  · exact List.nodup_nil
  · exact fun a ha => absurd ha List.not_mem_nil

/-- A round. As long as the search goes on, fewer than `count` devices have been collected. -/
theorem Collected.step (h : Collected q s) (hroom : s.result = [] ∨ s.result.length < q.count) :
    Collected q (q.round s).2 ∧ ((q.round s).1 = false →
      (q.round s).2.result = [] ∨ (q.round s).2.result.length < q.count) := by
  by_cases hfound : s.bStartOver = true ∧ bytesLe q.start s.pos
  · rw [round, if_pos (by simpa using hfound)]
    exact ⟨h, fun hfalse => absurd hfalse (by simp)⟩
  by_cases hne : q.onlineUsers.entries = []
  · rw [round, if_neg (by simpa using hfound), if_pos (by simpa using hne)]
    exact ⟨.of_empty rfl, fun hfalse => absurd hfalse (by simp)⟩
  by_cases hbatch : (q.batch q.count s.pos (q.onlineUsers.upperBound s.pos)).1 = []
  · rw [round_of_empty hfound hne hbatch]
    exact ⟨⟨h.length_le, h.nodup, h.eligible⟩, fun _ => hroom⟩
  have hcount : 0 < q.count := by
    rw [Nat.pos_iff_ne_zero]
    intro hzero
    rw [hzero, batch_zero] at hbatch
    exact hbatch rfl
  have hfew : s.result.length < q.count := by
    rcases hroom with hnil | hfew
    · rwa [hnil]
    · exact hfew
  rw [round_of_batch hfound hne hbatch]
  have hcollected : Collected q
      { s with pos := (q.batch q.count s.pos (q.onlineUsers.upperBound s.pos)).2 } :=
    ⟨h.length_le, h.nodup, h.eligible⟩
  obtain ⟨hins, hmore⟩ := hcollected.insertCandidates hfew fun a => eligible_of_candidate
  exact ⟨hins, fun hfalse => Or.inr (hmore hfalse)⟩

/-- The result of a search, however long it takes -/
theorem collected_of_exits (h : Exits q.round q.init t) : Collected q t :=
  exits_post (fun s => Collected q s ∧ (s.result = [] ∨ s.result.length < q.count))
    (Collected q) (fun _ hs hfalse => ⟨(hs.1.step hs.2).1, (hs.1.step hs.2).2 hfalse⟩)
    (fun _ hs _ => (hs.1.step hs.2).1) ⟨.of_empty rfl, Or.inl rfl⟩ h

/-! ## A device that is found -/

/-- A batch takes the first device of a user, or it does not get to the user. -/
theorem head_mem_batch {a : DispatchAddress} {e : Bytes × UserSet} (hb : 0 < b) (he : e ∈ l)
    (hsorted : l.Pairwise fun e e' => ¬ bytesLe e'.1 e.1)
    (hhead : (e.2.filter (· ∉ q.excludedUids)).head? = some a) :
    a ∈ (q.batch b pos l).1 ∨ ¬ bytesLe e.1 (q.batch b pos l).2 := by
  induction l generalizing b pos with
  | nil => exact absurd he List.not_mem_nil
  | cons d rest ih =>
      obtain ⟨b, rfl⟩ := Nat.exists_eq_add_of_lt hb
      rw [Nat.zero_add] at hb ⊢
      obtain ⟨hfirst, hrest⟩ := List.pairwise_cons.mp hsorted
      obtain ⟨uid, devices⟩ := d
      simp only [batch]
      rcases List.mem_cons.mp he with rfl | he
      · obtain ⟨tail, htail⟩ := List.head?_eq_some_iff.mp hhead
        rw [htail, List.take_succ_cons]
        exact Or.inl (List.mem_append_left _ List.mem_cons_self)
      · by_cases hleft : b + 1 - ((devices.filter (· ∉ q.excludedUids)).take (b + 1)).length = 0
        · rw [hleft, batch_zero]
          exact Or.inr (hfirst e he)
        · exact (ih (Nat.pos_of_ne_zero hleft) he hrest).imp_left (List.mem_append_right _)

theorem mem_insertCandidates {ids : UserSet} {a : DispatchAddress}
    (h : a ∈ s.result ∨ (a ∈ ids ∧ ∀ x ∈ ids, x = a)) :
    a ∈ (q.insertCandidates ids s).2.result := by
  induction ids generalizing s with
  | nil => exact h.resolve_right fun hids => List.not_mem_nil hids.1
  | cons id ids ih =>
      have hid : a ∈ s.result ∨ id = a := h.imp_right fun hids => hids.2 id List.mem_cons_self
      simp only [insertCandidates]
      split
      · next hold => exact hid.elim (fun ha => ha) (fun heq => heq ▸ hold)
      · have hresult : a ∈ s.result ++ [id] :=
          List.mem_append.mpr (hid.imp_right fun heq => by simp [heq])
        split
        · exact hresult
        · exact ih (Or.inl hresult)

/-- What is known of a device in the first time round: it has been found, or the search has not come
to its user. -/
def FoundOrAhead (a : DispatchAddress) (uid : Bytes) (s : SearchState) : Prop :=
  a ∈ s.result ∨ (s.bStartOver = false ∧ ¬ bytesLe uid s.pos)

/-- A round, for the only supported device -/
theorem FoundOrAhead.step {a : DispatchAddress} {e : Bytes × UserSet} (hcount : 0 < q.count)
    (he : e ∈ q.onlineUsers.entries) (hhead : (e.2.filter (· ∉ q.excludedUids)).head? = some a)
    (honly : ∀ x, q.supported x = true ↔ x = a) (hs : FoundOrAhead a e.1 s) :
    a ∈ (q.round s).2.result ∨
      ((q.round s).1 = false ∧ FoundOrAhead a e.1 (q.round s).2) := by
  have hne : q.onlineUsers.entries ≠ [] := List.ne_nil_of_mem he
  by_cases hfound : s.bStartOver = true ∧ bytesLe q.start s.pos
  · rw [round, if_pos (by simpa using hfound)]
    refine Or.inl (hs.resolve_right fun hahead => ?_)
    exact absurd (hfound.1.symm.trans hahead.1) (by simp)
  by_cases hempty : (q.batch q.count s.pos (q.onlineUsers.upperBound s.pos)).1 = []
  · -- the user is not ahead: there is the device to look at
    rw [round_of_empty hfound hne hempty]
    refine Or.inl (hs.resolve_right fun hahead => ?_)
    have hmem := UserMap.mem_upperBound.mpr ⟨he, hahead.2⟩
    cases batch_end (q := q) hcount s.pos (q.onlineUsers.upperBound s.pos) with
    | full front x rest split last ne_nil taken pass => exact ne_nil hempty
    | short room last all pass =>
        have ha := List.mem_of_mem_head? hhead
        rw [List.mem_filter, decide_eq_true_iff] at ha
        have hall := all e hmem a ha.1 ha.2
        rw [hempty] at hall
        exact List.not_mem_nil hall
  rw [round_of_batch hfound hne hempty]
  rcases hs with hs | ⟨hb, hahead⟩
  · exact Or.inl (mem_insertCandidates (Or.inl hs))
  have hmem := UserMap.mem_upperBound.mpr ⟨he, hahead⟩
  obtain ⟨pre, hpre, -⟩ := q.onlineUsers.exists_append_upperBound s.pos
  have hsorted := q.onlineUsers.sorted
  rw [hpre] at hsorted
  by_cases ha : a ∈ (q.batch q.count s.pos (q.onlineUsers.upperBound s.pos)).1
  · refine Or.inl (mem_insertCandidates (Or.inr ⟨?_, fun x hx => ?_⟩))
    · exact List.mem_filter.mpr ⟨mem_inSetOrder.mpr ha, (honly a).mpr rfl⟩
    · exact (honly x).mp (List.mem_filter.mp hx).2
  · have hnone : (inSetOrder (q.batch q.count s.pos
        (q.onlineUsers.upperBound s.pos)).1).filter q.supported = [] := by
      refine List.filter_eq_nil_iff.mpr fun x hx hsupported => ha ?_
      rw [← (honly x).mp hsupported]
      exact mem_inSetOrder.mp hx
    rw [hnone]
    exact Or.inr ⟨rfl, Or.inr ⟨hb, (head_mem_batch hcount hmem
      (List.pairwise_append.mp hsorted).2.1 hhead).resolve_left ha⟩⟩

/-- The only supported device is found from the beginning if it is the first one of its user that is
not excluded. -/
theorem mem_of_exits {a : DispatchAddress} {e : Bytes × UserSet} (hcount : 0 < q.count)
    (hstart : q.start = []) (he : e ∈ q.onlineUsers.entries) (huid : e.1 ≠ [])
    (hhead : (e.2.filter (· ∉ q.excludedUids)).head? = some a)
    (honly : ∀ x, q.supported x = true ↔ x = a) (h : Exits q.round q.init t) :
    a ∈ t.result := by
  refine exits_post (FoundOrAhead a e.1) (fun s => a ∈ s.result) (fun s hs _ => ?_)
    (fun s hs hleft => ?_) (Or.inr ⟨rfl, fun hle => ?_⟩) h
  · rcases hs.step hcount he hhead honly with ha | ⟨-, hahead⟩
    · exact Or.inl ha
    · exact hahead
  · refine (hs.step hcount he hhead honly).resolve_right fun hnot => ?_
    exact absurd (hleft.symm.trans hnot.1) (by simp)
  · rw [init, hstart] at hle
    exact huid (antisymm_of bytesLe hle (nil_bytesLe _))

end NoiseSearch

end BcmServer.Group
