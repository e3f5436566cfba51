import BcmServer.Lts.Run
import Mathlib.Data.Int.Notation
import Mathlib.Data.Nat.Notation

/-!
# BcmServer.Group.KeyMode — which keys a group asks its members for

The keys of a small group are made for each member, those of a large one are the
same for all. Whenever the members of a group change, the controller asks for
new keys: `sendGroupKeysUpdateRequestWhenMemberChanges` chooses the mode from
the number of members and, between the bounds of `GroupConfig`, from the mode of
the latest keys.

* `keyMode_hysteresis`: what holds at every call of every run in which each
  request is fulfilled before the next call.
-/

namespace BcmServer.Group

open BcmServer.Lts

/-- `GroupKeys::GroupKeysMode`, an open enumeration: `other` is a number without
an enumerator. -/
inductive GroupKeysMode where
  | oneForEach
  | allTheSame
  | unknown
  | other (n : ℤ)
deriving DecidableEq, Repr

/-- The mode is one of the three enumerators. -/
def GroupKeysMode.named : GroupKeysMode → Bool
  | oneForEach | allTheSame | unknown => true
  | other _ => false

/-- `GroupConfig`, the bounds on the number of members -/
structure GroupConfig where
  powerGroupMin : UInt32
  powerGroupMax : UInt32
  normalGroupRefreshKeysMax : UInt32
deriving DecidableEq, Repr

/-- What a call comes to: a request for keys of a mode, no request, or the exit
marked "should not reach here". -/
inductive KeysChange where
  | send (mode : GroupKeysMode)
  | keep
  | shouldNotReach
deriving DecidableEq, Repr

/-- `sendGroupKeysUpdateRequestWhenMemberChanges`; `latest` is what
`getLatestMode` gives, none if it fails. -/
def sendGroupKeysUpdateRequestWhenMemberChanges (cfg : GroupConfig)
    (groupMembersAfterChanges : UInt32) (latest : Option GroupKeysMode) : KeysChange :=
  if groupMembersAfterChanges ≤ cfg.powerGroupMin then .send .oneForEach
  else if cfg.powerGroupMin < groupMembersAfterChanges ∧
      groupMembersAfterChanges ≤ cfg.powerGroupMax then
    match latest.getD .unknown with
    | .oneForEach => .send .oneForEach
    | .allTheSame => .send .allTheSame
    | .unknown => .send .oneForEach
    | .other _ => .shouldNotReach
  else if cfg.powerGroupMax < groupMembersAfterChanges ∧
      groupMembersAfterChanges ≤ cfg.normalGroupRefreshKeysMax then .send .allTheSame
  else
    match latest.getD .unknown with
    | .oneForEach => .send .allTheSame
    | .allTheSame => .keep
    | .unknown => .send .allTheSame
    | .other _ => .shouldNotReach

/-- A call: the number of members, and whether `getLatestMode` can be read. -/
structure KeysCall where
  count : UInt32
  readable : Bool
deriving DecidableEq, Repr

/-- `getLatestMode`; nothing is stored before the first keys. -/
def KeysCall.getLatestMode (c : KeysCall) (stored : Option GroupKeysMode) :
    Option GroupKeysMode :=
  if c.readable then stored else none

/-- What the call does when `stored` is the mode of the latest keys. -/
def KeysCall.change (cfg : GroupConfig) (stored : Option GroupKeysMode) (c : KeysCall) :
    KeysChange :=
  sendGroupKeysUpdateRequestWhenMemberChanges cfg c.count (c.getLatestMode stored)

/-- The mode of the latest keys once the request is fulfilled. -/
def KeysCall.fulfil (cfg : GroupConfig) (stored : Option GroupKeysMode) (c : KeysCall) :
    Option GroupKeysMode :=
  match c.change cfg stored with
  | .send mode => some mode
  | _ => stored

/-- Calls one after the other, each fulfilled before the next. -/
def keysMachine (cfg : GroupConfig) : Machine (Option GroupKeysMode) KeysCall :=
  ⟨fun stored c => some (c.fulfil cfg stored)⟩

/-! ## One call -/

/-- The four ranges of the number of members, with what is sent there. -/
theorem change_cases (cfg : GroupConfig) (count : UInt32) (latest : Option GroupKeysMode) :
    (count ≤ cfg.powerGroupMin ∧
      sendGroupKeysUpdateRequestWhenMemberChanges cfg count latest = .send .oneForEach) ∨
    (cfg.powerGroupMin < count ∧ count ≤ cfg.powerGroupMax ∧
      sendGroupKeysUpdateRequestWhenMemberChanges cfg count latest =
        match latest.getD .unknown with
        | .oneForEach => .send .oneForEach
        | .allTheSame => .send .allTheSame
        | .unknown => .send .oneForEach
        | .other _ => .shouldNotReach) ∨
    (cfg.powerGroupMax < count ∧ count ≤ cfg.normalGroupRefreshKeysMax ∧
      sendGroupKeysUpdateRequestWhenMemberChanges cfg count latest = .send .allTheSame) ∨
    (cfg.powerGroupMax < count ∧ cfg.normalGroupRefreshKeysMax < count ∧
      sendGroupKeysUpdateRequestWhenMemberChanges cfg count latest =
        match latest.getD .unknown with
        | .oneForEach => .send .allTheSame
        | .allTheSame => .keep
        | .unknown => .send .allTheSame
        | .other _ => .shouldNotReach) := by
  unfold sendGroupKeysUpdateRequestWhenMemberChanges
  by_cases hmin : count ≤ cfg.powerGroupMin
  · exact Or.inl ⟨hmin, if_pos hmin⟩
  · right
    have hmin' : cfg.powerGroupMin < count := UInt32.not_le.mp hmin
    rw [if_neg hmin]
    by_cases hmax : count ≤ cfg.powerGroupMax
    · exact Or.inl ⟨hmin', hmax, if_pos ⟨hmin', hmax⟩⟩
    · right
      have hmax' : cfg.powerGroupMax < count := UInt32.not_le.mp hmax
      rw [if_neg fun h => hmax h.2]
      by_cases hrefresh : count ≤ cfg.normalGroupRefreshKeysMax
      · exact Or.inl ⟨hmax', hrefresh, if_pos ⟨hmax', hrefresh⟩⟩
      · right
        refine ⟨hmax', UInt32.not_le.mp hrefresh, ?_⟩
        rw [if_neg fun h => hrefresh h.2]

section Call

variable (cfg : GroupConfig) (stored : Option GroupKeysMode) (c : KeysCall)

/-- The mode a call reads is one of the enumerators if the stored one is. -/
theorem KeysCall.named_latest (h : ∀ m ∈ stored, m.named = true) :
    ((c.getLatestMode stored).getD .unknown).named = true := by
  unfold getLatestMode
  cases stored with
  | none => cases c.readable <;> rfl
  | some m =>
      cases c.readable with
      | false => rfl
      | true => exact h m rfl

/-- A call that reads an enumerator ends before the last exit. -/
theorem KeysCall.change_reaches (h : ∀ m ∈ stored, m.named = true) :
    c.change cfg stored ≠ .shouldNotReach := by
  have hnamed := c.named_latest stored h
  unfold change
  rcases change_cases cfg c.count (c.getLatestMode stored) with
    ⟨-, hsend⟩ | ⟨-, -, hsend⟩ | ⟨-, -, hsend⟩ | ⟨-, -, hsend⟩
  all_goals
    rw [hsend]
    generalize (c.getLatestMode stored).getD .unknown = mode at hnamed ⊢
    cases mode <;> first | exact KeysChange.noConfusion | cases hnamed

/-- A request is for keys for each member or for keys that are the same for all. -/
theorem KeysCall.change_send {m : GroupKeysMode} (h : c.change cfg stored = .send m) :
    m = .oneForEach ∨ m = .allTheSame := by
  unfold change at h
  rcases change_cases cfg c.count (c.getLatestMode stored) with
    ⟨-, hsend⟩ | ⟨-, -, hsend⟩ | ⟨-, -, hsend⟩ | ⟨-, -, hsend⟩
  all_goals
    rw [hsend] at h
    generalize (c.getLatestMode stored).getD .unknown = mode at h
    cases mode <;> cases h <;> first | exact Or.inl rfl | exact Or.inr rfl

/-- A call without a request, of a group whose bounds are in order: the group is
beyond the last bound and the latest mode was read as the same for all. -/
theorem KeysCall.change_keep (hmax : cfg.powerGroupMin ≤ cfg.powerGroupMax)
    (hrefresh : cfg.powerGroupMax ≤ cfg.normalGroupRefreshKeysMax) :
    c.change cfg stored = .keep ↔
      cfg.normalGroupRefreshKeysMax < c.count ∧ c.getLatestMode stored = some .allTheSame := by
  unfold change
  constructor
  · intro h
    rcases change_cases cfg c.count (c.getLatestMode stored) with
      ⟨-, hsend⟩ | ⟨-, -, hsend⟩ | ⟨-, -, hsend⟩ | ⟨-, hbeyond, hsend⟩
    all_goals rw [hsend] at h
    · cases h
    · generalize (c.getLatestMode stored).getD .unknown = mode at h
      cases mode <;> cases h
    · cases h
    · refine ⟨hbeyond, ?_⟩
      cases hread : c.getLatestMode stored with
      | none =>
          rw [hread] at h
          cases h
      | some mode =>
          rw [hread] at h
          cases mode <;> cases h
          rfl
  · rintro ⟨hbeyond, hread⟩
    have hmax' : cfg.powerGroupMax < c.count := UInt32.lt_of_le_of_lt hrefresh hbeyond
    have hmin' : cfg.powerGroupMin < c.count := UInt32.lt_of_le_of_lt hmax hmax'
    rcases change_cases cfg c.count (c.getLatestMode stored) with
      ⟨hle, -⟩ | ⟨-, hle, -⟩ | ⟨-, hle, -⟩ | ⟨-, -, hsend⟩
    · exact absurd hmin' (UInt32.not_lt.mpr hle)
    · exact absurd hmax' (UInt32.not_lt.mpr hle)
    · exact absurd hbeyond (UInt32.not_lt.mpr hle)
    · rw [hsend, hread]
      rfl

/-- A fulfilled request leaves one of the enumerators stored. -/
theorem KeysCall.fulfil_named (h : ∀ m ∈ stored, m.named = true) :
    ∀ m ∈ c.fulfil cfg stored, m.named = true := by
  unfold fulfil
  cases hchange : c.change cfg stored with
  | send mode =>
      intro m hm
      cases hm
      rcases c.change_send cfg stored hchange with rfl | rfl <;> rfl
  | keep => exact h
  | shouldNotReach => exact h

/-- The mode changes to that of the request. -/
theorem KeysCall.change_of_fulfil {m : GroupKeysMode} (hne : stored ≠ some m)
    (h : c.fulfil cfg stored = some m) : c.change cfg stored = .send m := by
  unfold fulfil at h
  cases hchange : c.change cfg stored with
  | send mode =>
      rw [hchange] at h
      cases h
      rfl
  | keep =>
      rw [hchange] at h
      exact absurd h hne
  | shouldNotReach =>
      rw [hchange] at h
      exact absurd h hne

theorem KeysCall.grows (hstored : stored = some .oneForEach)
    (h : c.change cfg stored = .send .allTheSame) : cfg.powerGroupMax < c.count := by
  have hmode : (c.getLatestMode stored).getD .unknown ≠ .allTheSame := by
    unfold getLatestMode
    rw [hstored]
    cases c.readable <;> exact GroupKeysMode.noConfusion
  unfold change at h
  rcases change_cases cfg c.count (c.getLatestMode stored) with
    ⟨-, hsend⟩ | ⟨-, -, hsend⟩ | ⟨hmax, -, -⟩ | ⟨hmax, -, -⟩
  · rw [hsend] at h
    cases h
  · rw [hsend] at h
    generalize (c.getLatestMode stored).getD .unknown = mode at h hmode
    cases mode <;> cases h
    exact absurd rfl hmode
  · exact hmax
  · exact hmax

theorem KeysCall.shrinks (hstored : stored = some .allTheSame)
    (h : c.change cfg stored = .send .oneForEach) :
    c.count ≤ cfg.powerGroupMin ∨ (c.count ≤ cfg.powerGroupMax ∧ c.readable = false) := by
  unfold change at h
  rcases change_cases cfg c.count (c.getLatestMode stored) with
    ⟨hmin, -⟩ | ⟨-, hmax, hsend⟩ | ⟨-, -, hsend⟩ | ⟨-, -, hsend⟩
  · exact Or.inl hmin
  · refine Or.inr ⟨hmax, ?_⟩
    cases hread : c.readable with
    | false => rfl
    | true =>
        have hlatest : c.getLatestMode stored = some .allTheSame := by
          unfold getLatestMode
          rw [hread, hstored]
          rfl
        rw [hsend, hlatest] at h
        cases h
  · rw [hsend] at h
    cases h
  · rw [hsend] at h
    generalize (c.getLatestMode stored).getD .unknown = mode at h
    cases mode <;> cases h

end Call

/-! ## Whole runs -/

/-- The stored mode stays one of the enumerators. -/
theorem keysMachine_named (cfg : GroupConfig) {stored stored' : Option GroupKeysMode}
    {calls : List KeysCall} (h : ∀ m ∈ stored, m.named = true)
    (hrun : (keysMachine cfg).run stored calls = some stored') :
    ∀ m ∈ stored', m.named = true := by
  have hany : (keysMachine cfg).Meets (fun _ _ => True) stored calls :=
    (keysMachine cfg).meets_of_forall (fun _ _ => trivial) stored calls
  refine (keysMachine cfg).run_invariant (fun stored => ∀ m ∈ stored, m.named = true) ?_ h hany
    hrun
  intro s c t hs _ hstep
  cases hstep
  exact c.fulfil_named cfg s hs

/-- At every call `c` of a run: a request is sent unless the group is beyond the
last bound and the latest mode was read as the same for all; the mode changes to
the same for all only beyond `powerGroupMax`, and back only up to
`powerGroupMin`, or up to `powerGroupMax` if the latest mode could not be read;
and the last exit is not reached. -/
theorem keyMode_hysteresis (cfg : GroupConfig) (hmax : cfg.powerGroupMin ≤ cfg.powerGroupMax)
    (hrefresh : cfg.powerGroupMax ≤ cfg.normalGroupRefreshKeysMax)
    (stored₀ stored : Option GroupKeysMode) (hnamed : ∀ m ∈ stored₀, m.named = true)
    (calls : List KeysCall) (hrun : (keysMachine cfg).run stored₀ calls = some stored)
    (c : KeysCall) :
    ((∃ m, c.change cfg stored = .send m) ↔
      ¬ (cfg.normalGroupRefreshKeysMax < c.count ∧
        c.getLatestMode stored = some .allTheSame)) ∧
    (stored = some .oneForEach → c.fulfil cfg stored = some .allTheSame →
      cfg.powerGroupMax < c.count) ∧
    (stored = some .allTheSame → c.fulfil cfg stored = some .oneForEach →
      c.count ≤ cfg.powerGroupMin ∨ (c.count ≤ cfg.powerGroupMax ∧ c.readable = false)) ∧
    c.change cfg stored ≠ .shouldNotReach := by
  have hstored := keysMachine_named cfg hnamed hrun
  have hreach := c.change_reaches cfg stored hstored
  refine ⟨?_, ?_, ?_, hreach⟩
  · rw [← c.change_keep cfg stored hmax hrefresh]
    cases hchange : c.change cfg stored with
    | send m => simp
    | keep => simp
    | shouldNotReach => exact absurd hchange hreach
  · intro hone hfulfil
    apply c.grows cfg stored hone
    apply c.change_of_fulfil cfg stored _ hfulfil
    rw [hone]
    exact fun heq => GroupKeysMode.noConfusion (Option.some.inj heq)
  · intro hall hfulfil
    apply c.shrinks cfg stored hall
    apply c.change_of_fulfil cfg stored _ hfulfil
    rw [hall]
    exact fun heq => GroupKeysMode.noConfusion (Option.some.inj heq)

/-- A group grows to 10 members and shrinks to 5 with the bounds 3, 7 and 20: the
mode stays that of the large group. -/
theorem keyMode_hysteresis_five :
    (keysMachine ⟨3, 7, 20⟩).run (some .oneForEach) [⟨10, true⟩] = some (some .allTheSame) ∧
      (KeysCall.mk 5 true).fulfil ⟨3, 7, 20⟩ (some .allTheSame) ≠ some .oneForEach := by
  have hrun : (keysMachine ⟨3, 7, 20⟩).run (some .oneForEach) [⟨10, true⟩] =
      some (some .allTheSame) := by decide
  refine ⟨hrun, ?_⟩
  intro hback
  have hcall := keyMode_hysteresis ⟨3, 7, 20⟩ (by decide) (by decide) (some .oneForEach)
    (some .allTheSame) (by simp [GroupKeysMode.named]) [⟨10, true⟩] hrun ⟨5, true⟩
  exact absurd (hcall.2.2.1 rfl hback) (by decide)

end BcmServer.Group
