import Mathlib.Tactic.Common
import Mathlib.Data.List.Basic
import Mathlib.Logic.Relation

/-!
# BcmServer.Group.Seat — one device in one group

The index of online group members has one question per device and group: is the
device entered? A `Seat` is all that bears on it: the status last reported for
the device, whether it is marked online, the user's row in the group, whether it
is entered, and the handlers on their way, in the order in which they are run.
Handlers of the user's status and handlers of the group run concurrently.

`SeatStep` says what the steps are and which crossings of the two sides are
excluded. `SeatInv` is what the steps keep: a seat that is not as it should be
has a handler on its way that will put it right, and no handler will spoil one
that is. With no handler left the seat is right (`SeatInv.settled`).
-/

namespace BcmServer.Group

/-- The handlers of a device's status. `Read` is about to read the user's rows,
`Update` has read them and is about to change the index. -/
inductive UserStage where
  | online
  | onlineRead
  | onlineUpdate (row : Option Bool)
  | offline
  | offlineRead
  | offlineUpdate (joined : Bool)
deriving DecidableEq, Repr

/-- The handlers of a user's membership. `held` tells whether the device was
among those the handler found online. -/
inductive GroupStage where
  | enter
  | enterRead (held : Bool)
  | enterUpdate (held : Bool) (counts : Bool)
  | leave
  | leaveUpdate (held : Bool)
deriving DecidableEq, Repr

/-- A handler that has not begun. -/
@[grind =] def UserStage.queued : UserStage → Bool
  | online | offline => true
  | onlineRead | onlineUpdate _ | offlineRead | offlineUpdate _ => false

@[grind =] def UserStage.isOnline : UserStage → Bool
  | online | onlineRead | onlineUpdate _ => true
  | offline | offlineRead | offlineUpdate _ => false

@[grind =] def GroupStage.queued : GroupStage → Bool
  | enter | leave => true
  | enterRead _ | enterUpdate _ _ | leaveUpdate _ => false

@[grind =] def GroupStage.isEnter : GroupStage → Bool
  | enter | enterRead _ | enterUpdate _ _ => true
  | leave | leaveUpdate _ => false

/-- One device in one group. `row` is the user's row in the group, with whether
its role counts as membership. -/
structure Seat where
  wanted : Bool
  online : Bool
  row : Option Bool
  member : Bool
  user : List UserStage
  group : List GroupStage
deriving DecidableEq, Repr

namespace Seat

/-- An enter that found the device online has still to enter it. -/
@[grind =] def Entering (s : Seat) : Prop :=
  s.group.head? = some (.enterRead true) ∨ s.group.head? = some (.enterUpdate true true)

/-- An offline that has still to remove the device will do so. -/
@[grind =] def Removing (s : Seat) : Prop :=
  s.user.head? = some (.offlineUpdate true) ∨
    (s.user.head? = some .offlineRead ∧ s.row.isSome = true)

/-- A leave will remove the device, as long as it stays online. -/
@[grind =] def Leaving (s : Seat) : Prop :=
  .leave ∈ s.group ∨ s.group.head? = some (.leaveUpdate true)

end Seat

/-- The steps that concern a seat, with the crossings that are excluded. A row is
not deleted while an offline of an entered device is about to read, and an
offline of an entered device does not begin while a leave has still to look who
is online. An offline does not remove the device while an enter is about to
enter it, and a leave does not remove it while an online that read a counting
row is about to enter it, unless the row counts again or another leave follows. -/
inductive SeatStep (s : Seat) : Seat → Prop where
  | userOnline : SeatStep s { s with wanted := true, user := s.user ++ [.online] }
  | userOffline : SeatStep s { s with wanted := false, user := s.user ++ [.offline] }
  | dbEnter (counts : Bool) (hrow : s.row = none) :
      SeatStep s { s with row := some counts, group := s.group ++ [.enter] }
  | dbLeave (hrow : s.row.isSome = true)
      (hapart : s.user.head? = some .offlineRead → s.member = false ∧ ¬ s.Entering) :
      SeatStep s { s with row := none, group := s.group ++ [.leave] }
  | onlineKnown {rest : List UserStage} (hhead : s.user = .online :: rest)
      (honline : s.online = true) : SeatStep s { s with user := rest }
  | onlineMark {rest : List UserStage} (hhead : s.user = .online :: rest)
      (honline : s.online = false) :
      SeatStep s { s with online := true, user := .onlineRead :: rest }
  | onlineRead {rest : List UserStage} (hhead : s.user = .onlineRead :: rest) :
      SeatStep s { s with user := .onlineUpdate s.row :: rest }
  | onlineUpdate {rest : List UserStage} {row : Option Bool}
      (hhead : s.user = .onlineUpdate row :: rest) :
      SeatStep s { s with member := s.member || (row == some true), user := rest }
  | offlineMark {rest : List UserStage} (hhead : s.user = .offline :: rest)
      (hapart : .leave ∈ s.group → s.member = false ∧ ¬ s.Entering) :
      SeatStep s { s with online := false, user := .offlineRead :: rest }
  | offlineRead {rest : List UserStage} (hhead : s.user = .offlineRead :: rest) :
      SeatStep s { s with user := .offlineUpdate s.row.isSome :: rest }
  | offlineUpdate {rest : List UserStage} {joined : Bool}
      (hhead : s.user = .offlineUpdate joined :: rest) (hapart : ¬ s.Entering) :
      SeatStep s { s with member := s.member && !joined, user := rest }
  | enterSkip {rest : List GroupStage} (hhead : s.group = .enter :: rest)
      (honline : s.online = false) : SeatStep s { s with group := rest }
  | enterMark {rest : List GroupStage} (hhead : s.group = .enter :: rest) :
      SeatStep s { s with group := .enterRead s.online :: rest }
  | enterMissing {rest : List GroupStage} {held : Bool} (hhead : s.group = .enterRead held :: rest)
      (hrow : s.row = none) : SeatStep s { s with group := rest }
  | enterRead {rest : List GroupStage} {held counts : Bool}
      (hhead : s.group = .enterRead held :: rest) (hrow : s.row = some counts) :
      SeatStep s { s with group := .enterUpdate held counts :: rest }
  | enterUpdate {rest : List GroupStage} {held counts : Bool}
      (hhead : s.group = .enterUpdate held counts :: rest) :
      SeatStep s { s with member := s.member || (held && counts), group := rest }
  | leaveSkip {rest : List GroupStage} (hhead : s.group = .leave :: rest)
      (honline : s.online = false) : SeatStep s { s with group := rest }
  | leaveMark {rest : List GroupStage} (hhead : s.group = .leave :: rest) :
      SeatStep s { s with group := .leaveUpdate s.online :: rest }
  | leaveUpdate {rest : List GroupStage} {held : Bool} (hhead : s.group = .leaveUpdate held :: rest)
      (hapart : s.user.head? = some (.onlineUpdate (some true)) →
        s.row = some true ∨ .leave ∈ rest) :
      SeatStep s { s with member := s.member && !held, group := rest }

/-! ## The handlers on their way -/

/-- The status handlers: only the first has begun, it has set the mark, and the
last one is the last status. -/
structure UserShape (wanted online : Bool) (user : List UserStage) : Prop where
  tail : ∀ k ∈ user.tail, k.queued = true
  status : wanted = user.foldl (fun _ k => k.isOnline) online
  marked : ∀ k, user.head? = some k → k.queued = false → online = k.isOnline

/-- The membership handlers: only the first has begun, and the last one says
whether there is a row. -/
structure GroupShape (joined : Bool) (group : List GroupStage) : Prop where
  tail : ∀ k ∈ group.tail, k.queued = true
  last : joined = group.foldl (fun _ k => k.isEnter) joined

namespace UserShape

variable {wanted online : Bool} {user rest : List UserStage} {k : UserStage}

theorem append (h : UserShape wanted online user) (hk : k.queued = true) :
    UserShape k.isOnline online (user ++ [k]) := by
  constructor
  · intro k' hk'
    cases user with
    | nil => cases hk'
    | cons k₀ user =>
        rcases List.mem_append.mp hk' with hk' | hk'
        · exact h.tail k' hk'
        · rwa [List.mem_singleton.mp hk']
  · rw [List.foldl_append]
    rfl
  · intro k' hk' hbegun
    cases user with
    | nil =>
        cases hk'
        rw [hk] at hbegun
        cases hbegun
    | cons k₀ user => exact h.marked k' hk' hbegun

/-- The handlers behind the first have not begun. -/
theorem queued_of_head (h : UserShape wanted online user) (huser : user = k :: rest) :
    ∀ k', rest.head? = some k' → k'.queued = true := by
  intro k' hk'
  rw [huser] at h
  exact h.tail k' (List.mem_of_mem_head? hk')

theorem pop (h : UserShape wanted online (k :: rest)) (hk : online = k.isOnline) :
    UserShape wanted online rest := by
  constructor
  · intro k' hk'
    exact h.tail k' (List.mem_of_mem_tail hk')
  · rw [hk]
    exact h.status
  · intro k' hk' hbegun
    rw [h.queued_of_head rfl k' hk'] at hbegun
    cases hbegun

/-- The first handler goes on. -/
theorem next (h : UserShape wanted online (k :: rest)) {k' : UserStage}
    (hk : k'.isOnline = k.isOnline) : UserShape wanted k.isOnline (k' :: rest) := by
  constructor
  · exact h.tail
  · have hstatus := h.status
    rw [List.foldl_cons] at hstatus ⊢
    rw [hstatus, hk]
  · intro k'' hk'' _
    cases hk''
    exact hk.symm

end UserShape

namespace GroupShape

variable {joined : Bool} {group rest : List GroupStage} {k : GroupStage}

theorem append (h : GroupShape joined group) (hk : k.queued = true) :
    GroupShape k.isEnter (group ++ [k]) := by
  constructor
  · intro k' hk'
    cases group with
    | nil => cases hk'
    | cons k₀ group =>
        rcases List.mem_append.mp hk' with hk' | hk'
        · exact h.tail k' hk'
        · rwa [List.mem_singleton.mp hk']
  · rw [List.foldl_append]
    rfl

theorem queued_of_head (h : GroupShape joined group) (hgroup : group = k :: rest) :
    ∀ k', rest.head? = some k' → k'.queued = true := by
  intro k' hk'
  rw [hgroup] at h
  exact h.tail k' (List.mem_of_mem_head? hk')

theorem pop (h : GroupShape joined (k :: rest)) : GroupShape joined rest := by
  constructor
  · intro k' hk'
    exact h.tail k' (List.mem_of_mem_tail hk')
  · cases rest with
    | nil => rfl
    | cons k₀ rest => exact h.last

theorem next (h : GroupShape joined (k :: rest)) {k' : GroupStage}
    (hk : k'.isEnter = k.isEnter) : GroupShape joined (k' :: rest) := by
  constructor
  · exact h.tail
  · have hlast := h.last
    rw [List.foldl_cons] at hlast ⊢
    rwa [hk]

/-- If there is a row, an enter follows every leave. -/
theorem enter_of_leave (h : GroupShape true (k :: rest)) (hk : k.isEnter = false) :
    .enter ∈ rest := by
  have hlast : true = rest.foldl (fun _ k => k.isEnter) false := by
    have hlast := h.last
    rwa [List.foldl_cons, hk] at hlast
  have htail : ∀ k ∈ rest, k.queued = true := h.tail
  clear h
  induction rest with
  | nil => cases hlast
  | cons k₀ rest ih =>
      by_cases hrest : true = rest.foldl (fun _ k => k.isEnter) false
      · exact List.mem_cons_of_mem k₀ (ih hrest fun k hk => htail k (List.mem_cons_of_mem k₀ hk))
      · -- nothing behind `k₀` is an enter, so it is one itself
        have hqueued := htail k₀ List.mem_cons_self
        cases k₀ with
        | enter => exact List.mem_cons_self
        | leave => exact absurd hlast hrest
        | enterRead held | enterUpdate held counts | leaveUpdate held => cases hqueued

/-- An enter that no leave follows has its row. -/
theorem joined_of_enter (h : GroupShape joined (k :: rest)) (hk : k.isEnter = true)
    (hno : .leave ∉ rest) : joined = true := by
  have hlast : joined = rest.foldl (fun _ k => k.isEnter) true := by
    have hlast := h.last
    rwa [List.foldl_cons, hk] at hlast
  have htail : ∀ k ∈ rest, k.queued = true := h.tail
  clear h
  rw [hlast]
  clear hlast
  induction rest with
  | nil => rfl
  | cons k₀ rest ih =>
      have hqueued := htail k₀ List.mem_cons_self
      have hrest := ih (fun hmem => hno (List.mem_cons_of_mem k₀ hmem))
        (fun k hk => htail k (List.mem_cons_of_mem k₀ hk))
      cases k₀ with
      | enter => exact hrest
      | leave => exact absurd List.mem_cons_self hno
      | enterRead held | enterUpdate held counts | leaveUpdate held => cases hqueued

end GroupShape

/-- A handler that joins the queue is not taken for one that has begun. -/
theorem head?_append_user {user : List UserStage} {k k' : UserStage} (hk : k.queued = true)
    (hk' : k'.queued = false) : (user ++ [k]).head? = some k' ↔ user.head? = some k' := by
  cases user with
  | nil =>
      constructor
      · intro heq
        cases heq
        rw [hk] at hk'
        cases hk'
      · intro heq
        cases heq
  | cons k₀ user => exact Iff.rfl

theorem head?_append_group {group : List GroupStage} {k k' : GroupStage} (hk : k.queued = true)
    (hk' : k'.queued = false) : (group ++ [k]).head? = some k' ↔ group.head? = some k' := by
  cases group with
  | nil =>
      constructor
      · intro heq
        cases heq
        rw [hk] at hk'
        cases hk'
      · intro heq
        cases heq
  | cons k₀ group => exact Iff.rfl

structure Seat.Shape (s : Seat) : Prop where
  user : UserShape s.wanted s.online s.user
  group : GroupShape s.row.isSome s.group

theorem Seat.Shape.step {s t : Seat} (h : s.Shape) (hstep : SeatStep s t) : t.Shape := by
  rcases h with ⟨hu, hg⟩
  cases hstep with
  | userOnline => exact ⟨hu.append (k := .online) rfl, hg⟩
  | userOffline => exact ⟨hu.append (k := .offline) rfl, hg⟩
  | dbEnter counts hrow => exact ⟨hu, hg.append (k := .enter) rfl⟩
  | dbLeave hrow hapart => exact ⟨hu, hg.append (k := .leave) rfl⟩
  | onlineKnown hhead honline =>
      rw [hhead] at hu
      exact ⟨hu.pop honline, hg⟩
  | onlineMark hhead honline =>
      rw [hhead] at hu
      exact ⟨hu.next rfl, hg⟩
  | onlineRead hhead =>
      rw [hhead] at hu
      have honline : s.online = true := hu.marked _ rfl rfl
      exact ⟨by rw [honline]; exact hu.next rfl, hg⟩
  | onlineUpdate hhead =>
      rw [hhead] at hu
      exact ⟨hu.pop (hu.marked _ rfl rfl), hg⟩
  | offlineMark hhead hapart =>
      rw [hhead] at hu
      exact ⟨hu.next rfl, hg⟩
  | offlineRead hhead =>
      rw [hhead] at hu
      have honline : s.online = false := hu.marked _ rfl rfl
      exact ⟨by rw [honline]; exact hu.next rfl, hg⟩
  | offlineUpdate hhead hapart =>
      rw [hhead] at hu
      exact ⟨hu.pop (hu.marked _ rfl rfl), hg⟩
  | enterSkip hhead _ | enterMissing hhead _ | enterUpdate hhead | leaveSkip hhead _
  | leaveUpdate hhead _ =>
      rw [hhead] at hg
      exact ⟨hu, hg.pop⟩
  | enterMark hhead | enterRead hhead _ | leaveMark hhead =>
      rw [hhead] at hg
      exact ⟨hu, hg.next rfl⟩

/-! ## What will be put right -/

/-- What is not as it should be will be put right, and nothing will be spoiled. -/
structure Seat.Right (s : Seat) : Prop where
  /-- entered without a counting row -/
  extra : s.member = true → s.online = true → s.row ≠ some true → s.Leaving
  /-- entered without being online -/
  gone : s.member = true → s.online = false →
    s.Removing ∨ s.group.head? = some (.leaveUpdate true)
  /-- online with a counting row, and not entered -/
  missing : s.member = false → s.online = true → s.row = some true →
    s.user.head? = some .onlineRead ∨ s.user.head? = some (.onlineUpdate (some true)) ∨
      .enter ∈ s.group ∨ s.Entering
  /-- about to be entered from a row that was read -/
  loaded : s.user.head? = some (.onlineUpdate (some true)) → s.row = some true ∨ s.Leaving
  /-- about to be entered from having been found online -/
  held : s.Entering → s.online = true ∨ s.Removing
  found : s.group.head? = some (.enterUpdate true true) → s.row = some true ∨ .leave ∈ s.group

theorem Seat.Right.step {s t : Seat} (h : s.Right) (hshape : s.Shape) (hstep : SeatStep s t) :
    t.Right := by
  rcases s with ⟨wanted, online, row, member, user, group⟩
  rcases hshape with ⟨hu, hg⟩
  rcases h with ⟨hextra, hgone, hmissing, hloaded, hheld, hfound⟩
  have hmarked := hu.marked
  cases hstep with
  | userOnline =>
      have hhead : ∀ k, k.queued = false →
          ((user ++ [UserStage.online]).head? = some k ↔ user.head? = some k) :=
        fun k hk => head?_append_user rfl hk
      constructor <;> grind -ring -linarith -lia
  | userOffline =>
      have hhead : ∀ k, k.queued = false →
          ((user ++ [UserStage.offline]).head? = some k ↔ user.head? = some k) :=
        fun k hk => head?_append_user rfl hk
      constructor <;> grind -ring -linarith -lia
  | dbEnter counts hrow =>
      -- a device that should now be entered has the new enter on its way
      have hhead : ∀ k, k.queued = false →
          ((group ++ [GroupStage.enter]).head? = some k ↔ group.head? = some k) :=
        fun k hk => head?_append_group rfl hk
      constructor <;> grind -ring -linarith -lia
  | dbLeave hrow hapart =>
      -- the new leave answers for whatever is entered; an offline that relied on
      -- the row has read it already
      have hhead : ∀ k, k.queued = false →
          ((group ++ [GroupStage.leave]).head? = some k ↔ group.head? = some k) :=
        fun k hk => head?_append_group rfl hk
      constructor <;> grind -ring -linarith -lia
  | onlineKnown hhead honline =>
      have hqueued := hu.queued_of_head hhead
      constructor <;> grind -ring -linarith -lia
  | onlineMark hhead honline => constructor <;> grind -ring -linarith -lia
  | onlineRead hhead => constructor <;> grind -ring -linarith -lia
  | onlineUpdate hhead =>
      have hqueued := hu.queued_of_head hhead
      constructor <;> grind -ring -linarith -lia
  | offlineMark hhead hapart =>
      -- no leave is left, so an enter that found the device online has its row
      -- and the offline will read it
      have hjoined : ∀ k, group.head? = some k → k.isEnter = true → .leave ∉ group →
          row.isSome = true := by
        intro k hk henter hno
        cases group with
        | nil => cases hk
        | cons k₀ group =>
            cases hk
            exact hg.joined_of_enter henter fun hmem => hno (List.mem_cons_of_mem _ hmem)
      constructor <;> grind -ring -linarith -lia
  | offlineRead hhead => constructor <;> grind -ring -linarith -lia
  | offlineUpdate hhead hapart =>
      have hqueued := hu.queued_of_head hhead
      constructor <;> grind -ring -linarith -lia
  | enterSkip hhead _ | enterMissing hhead _ | enterUpdate hhead | leaveSkip hhead _ =>
      have hqueued := hg.queued_of_head hhead
      constructor <;> grind -ring -linarith -lia
  | enterMark hhead | enterRead hhead _ | leaveMark hhead =>
      constructor <;> grind -ring -linarith -lia
  | @leaveUpdate rest _ hhead hapart =>
      have hqueued := hg.queued_of_head hhead
      rw [show group = _ from hhead] at hg
      -- if there is a row again, the enter that made it comes after this leave
      have henter : row.isSome = true → .enter ∈ rest := by
        intro hrow
        have hg' : GroupShape row.isSome (.leaveUpdate _ :: rest) := hg
        rw [hrow] at hg'
        exact hg'.enter_of_leave rfl
      constructor <;> grind -ring -linarith -lia

structure SeatInv (s : Seat) : Prop where
  shape : s.Shape
  right : s.Right

theorem SeatInv.step {s t : Seat} (h : SeatInv s) (hstep : SeatStep s t) : SeatInv t :=
  ⟨h.shape.step hstep, h.right.step h.shape hstep⟩

theorem SeatInv.moves {s t : Seat} (h : SeatInv s) (hmove : Relation.ReflGen SeatStep s t) :
    SeatInv t := by
  cases hmove with
  | refl => exact h
  | single hstep => exact h.step hstep

/-- With no handler left the device is entered exactly if it was last reported
online and the row counts. -/
theorem SeatInv.settled {s : Seat} (h : SeatInv s) (huser : s.user = []) (hgroup : s.group = []) :
    s.member = true ↔ s.wanted = true ∧ s.row = some true := by
  have hstatus' : s.wanted = s.online := by
    have hstatus := h.shape.user.status
    rwa [huser, List.foldl_nil] at hstatus
  constructor
  · intro hmember
    have honline : s.online = true := by
      by_contra hoff
      rw [Bool.not_eq_true] at hoff
      rcases h.right.gone hmember hoff with hrem | hleave
      · rcases hrem with hrem | ⟨hrem, -⟩ <;> simp [huser] at hrem
      · simp [hgroup] at hleave
    refine ⟨hstatus'.trans honline, ?_⟩
    by_contra hrow
    rcases h.right.extra hmember honline hrow with hleave | hleave <;> simp [hgroup] at hleave
  · rintro ⟨hwanted, hrow⟩
    by_contra hout
    rw [Bool.not_eq_true] at hout
    rcases h.right.missing hout (hstatus'.symm.trans hwanted) hrow with hu | hu | hg | hg | hg
    · simp [huser] at hu
    · simp [huser] at hu
    · simp [hgroup] at hg
    · simp [hgroup] at hg
    · simp [hgroup] at hg

end BcmServer.Group
