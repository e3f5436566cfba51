import BcmServer.Group.OnlineIndex

/-!
# BcmServer.Group.Channels — the channels of the groups with somebody online

The handlers of `OnlineMsgMemberMgr` subscribe to the channel of a group when it
gets its first device and unsubscribe when it has lost the last one. Whether to
do so is decided from the index under its mutex; `GroupMsgSub` is called later,
when the index may have changed again, and the handlers do not decide alike: an
online subscribes to the channel of every group of the user that is not in the
index, also where the role does not put the device there.

* `channels_agree`: once all handlers have finished, the subscribed channels are
  those of the groups with a device in the index, in every run that meets
  `Timely`.
* `channels_crossed`: one device comes online while the last other one goes
  offline, and the unsubscription of the one comes after the subscription of the
  other.

`Settling` is the invariant: what is wrong with a channel has a handler on its
way that puts it right.
-/

namespace BcmServer.Group

open BcmServer.Util BcmServer.Lts BcmServer.Dispatcher

/-! ## What a handler has still to do about a channel -/

/-- The handler is about to subscribe to the channel of the group. -/
def Handler.subscribes (g : Gid) : Handler → Bool
  | onlineSub _ chans => g ∈ chans
  | enterSub _ g' => g' = g
  | _ => false

/-- The handler has still to look whether the group exists, or is about to
unsubscribe from its channel. -/
def Handler.unsubscribes (g : Gid) : Handler → Bool
  | offlineCheck _ gids chans => g ∈ gids ∨ g ∈ chans
  | offlineUnsub _ chans => g ∈ chans
  | leaveCheck _ g' | leaveUnsub _ g' => g' = g
  | _ => false

/-- The call of `GroupMsgSub` that is the next step of the handler: the group,
and whether it subscribes. -/
def Handler.call : Handler → Option (Gid × Bool)
  | onlineSub _ (g :: _) | enterSub _ g => some (g, true)
  | offlineUnsub _ (g :: _) | leaveUnsub _ g => some (g, false)
  | _ => none

namespace MemberMgr

/-- The condition on steps. A channel is subscribed to only while its group has a
device or a handler that took devices out has still to look; it is unsubscribed
from only while the group has none, or a handler that put the first one in has
still to subscribe. -/
def timely (pool : IoCtxPool) (s : MemberMgr) : MemberEvent → Bool
  | .run c _ => match (s.ctxs c).head?.bind Handler.call with
      | some (g, true) => s.isGroupExist g || (s.handlers pool).any (Handler.unsubscribes g)
      | some (g, false) => !s.isGroupExist g || (s.handlers pool).any (Handler.subscribes g)
      | none => true
  | _ => true

def Timely (pool : IoCtxPool) (s : MemberMgr) (e : MemberEvent) : Prop := s.timely pool e = true

instance (pool : IoCtxPool) (s : MemberMgr) (e : MemberEvent) : Decidable (Timely pool s e) :=
  inferInstanceAs (Decidable (s.timely pool e = true))

/-! ## The index and the channels to subscribe -/

section Exists

variable (s : MemberMgr) (a : DispatchAddress) (g g' : Gid)

theorem isGroupExist_iff : s.isGroupExist g = true ↔ ∃ a, a ∈ s.groupMembers g := by
  unfold isGroupExist
  rw [decide_eq_true_iff]
  exact ⟨List.exists_mem_of_ne_nil _, fun ⟨_, ha⟩ => List.ne_nil_of_mem ha⟩

theorem isGroupExist_congr {s t : MemberMgr} {g : Gid}
    (h : ∀ a, a ∈ t.groupMembers g ↔ a ∈ s.groupMembers g) :
    t.isGroupExist g = s.isGroupExist g := by
  rw [Bool.eq_iff_iff, isGroupExist_iff, isGroupExist_iff]
  exact exists_congr h

theorem loadGroups_keeps_chans (details : List (Gid × Role)) (chans : List Gid)
    (hg : g ∈ chans) : g ∈ (s.loadGroups a details chans).2 := by
  induction details generalizing s chans with
  | nil => exact hg
  | cons d details ih =>
      rcases d with ⟨g₀, r₀⟩
      simp only [loadGroups]
      apply ih
      split
      · exact hg
      · exact List.mem_append_left [g₀] hg

/-- A group that the online puts the device into is in the index already or its
channel is subscribed to. -/
theorem mem_loadGroups_chans (details : List (Gid × Role)) (chans : List Gid)
    (hnew : s.isGroupExist g = false) {r : Role} (hr : (g, r) ∈ details) :
    g ∈ (s.loadGroups a details chans).2 := by
  induction details generalizing s chans with
  | nil => exact absurd hr List.not_mem_nil
  | cons d details ih =>
      rcases d with ⟨g₀, r₀⟩
      simp only [loadGroups]
      by_cases hg : g₀ = g
      · subst hg
        apply loadGroups_keeps_chans
        rw [hnew]
        exact List.mem_append_right chans List.mem_cons_self
      · apply ih
        · split
          · refine (isGroupExist_congr ?_).trans hnew
            intro b
            rw [mem_insertMember]
            exact ⟨fun hb => hb.elim id fun hb => absurd hb.1 hg, Or.inl⟩
          · exact hnew
        · rcases List.mem_cons.mp hr with heq | hr
          · cases heq
            exact absurd rfl hg
          · exact hr

end Exists

/-! ## The step of a handler, as one channel sees it -/

/-- What a step does that does not call `GroupMsgSub` for the group: a handler
that has something to do about the channel keeps it, unless it has found the
group to exist, and where the group comes into being or disappears the handler
has something to do from then on. -/
structure Keeps (s : MemberMgr) (h : Handler) (g : Gid) (t : MemberMgr) (k : Option Handler) :
    Prop where
  subscribed : t.subscribed g = s.subscribed g
  subscribes : h.subscribes g = true → k.any (Handler.subscribes g) = true
  unsubscribes : h.unsubscribes g = true →
    s.isGroupExist g = true ∨ k.any (Handler.unsubscribes g) = true
  exist : t.isGroupExist g = s.isGroupExist g ∨
    (t.isGroupExist g = true ∧ k.any (Handler.subscribes g) = true) ∨
    (t.isGroupExist g = false ∧ k.any (Handler.unsubscribes g) = true)

section Next

variable (s : MemberMgr) (found : Bool) (a : DispatchAddress) (uid : Bytes) (g g' : Gid)

/-- A step of a handler that neither changes the index nor the channels, and has
nothing to do about the channel. -/
theorem Keeps.idle {s t : MemberMgr} {h : Handler} {g : Gid} {k : Option Handler}
    (hmembers : t.groupMembers = s.groupMembers) (hsubscribed : t.subscribed = s.subscribed)
    (hsub : h.subscribes g = false) (hunsub : h.unsubscribes g = false) : s.Keeps h g t k where
  subscribed := by rw [hsubscribed]
  subscribes := by
    intro hh
    rw [hsub] at hh
    cases hh
  unsubscribes := by
    intro hh
    rw [hunsub] at hh
    cases hh
  exist := Or.inl (by unfold isGroupExist; rw [hmembers])

theorem keeps_onlineUpdate (details : MemberRows) :
    s.Keeps (.onlineUpdate a details) g (s.next found (.onlineUpdate a details)).1
      (s.next found (.onlineUpdate a details)).2 := by
  have hstate := s.next_onlineUpdate found a details
  obtain ⟨m, hframe⟩ := s.loadGroups_frame a details.rows []
  have hmem : ∀ b, b ∈ (s.loadGroups a details.rows []).1.groupMembers g ↔
      b ∈ s.groupMembers g ∨ (b = a ∧ ∃ r, (g, r) ∈ details.rows ∧ r.counts = true) :=
    fun b => s.mem_loadGroups b a g details.rows []
  constructor
  · rw [hstate, hframe]
  · intro h
    cases h
  · intro h
    cases h
  · by_cases hload : ∃ r, (g, r) ∈ details.rows ∧ r.counts = true
    · cases hex : s.isGroupExist g with
      | false =>
          right
          left
          obtain ⟨r, hr, hcounts⟩ := hload
          constructor
          · rw [hstate, isGroupExist_iff]
            exact ⟨a, (hmem a).mpr (Or.inr ⟨rfl, r, hr, hcounts⟩)⟩
          · have hchan := s.mem_loadGroups_chans a g details.rows [] hex hr
            simp only [next]
            split
            · next hnil => simp [hnil] at hchan
            · next hsome => simpa [Handler.subscribes, hsome] using hchan
      | true =>
          left
          obtain ⟨b, hb⟩ := (s.isGroupExist_iff g).mp hex
          rw [hstate, isGroupExist_iff]
          exact ⟨b, (hmem b).mpr (Or.inl hb)⟩
    · left
      rw [hstate]
      apply isGroupExist_congr
      intro b
      rw [hmem b]
      exact ⟨fun hb => hb.elim id fun hb => absurd hb.2 hload, Or.inl⟩

theorem keeps_enterUpdate (users : UserSet) (role : Role) :
    s.Keeps (.enterUpdate uid g' users role) g (s.next found (.enterUpdate uid g' users role)).1
      (s.next found (.enterUpdate uid g' users role)).2 := by
  by_cases hrole : role.counts = true
  · obtain ⟨m, hframe⟩ := s.foldl_insertMember_frame g' users
    have hmem : ∀ b, b ∈ (users.foldl (fun s a => s.insertMember g' a) s).groupMembers g ↔
        b ∈ s.groupMembers g ∨ (g' = g ∧ b ∈ users) :=
      fun b => s.mem_foldl_insertMember b g g' users
    rw [show s.next found (.enterUpdate uid g' users role) = _ from if_pos hrole]
    constructor
    · rw [hframe]
    · intro h
      cases h
    · intro h
      cases h
    · by_cases hg : g' = g
      · subst hg
        cases hex : s.isGroupExist g' with
        | false =>
            cases users with
            | nil => exact Or.inl hex
            | cons b users =>
                right
                left
                constructor
                · rw [isGroupExist_iff]
                  exact ⟨b, (hmem b).mpr (Or.inr ⟨rfl, List.mem_cons_self⟩)⟩
                · simp [Handler.subscribes]
        | true =>
            left
            obtain ⟨b, hb⟩ := (s.isGroupExist_iff g').mp hex
            rw [isGroupExist_iff]
            exact ⟨b, (hmem b).mpr (Or.inl hb)⟩
      · left
        apply isGroupExist_congr
        intro b
        rw [hmem b]
        exact ⟨fun hb => hb.elim id fun hb => absurd hb.1 hg, Or.inl⟩
  · rw [show s.next found (.enterUpdate uid g' users role) = _ from if_neg hrole]
    exact Keeps.idle rfl rfl rfl rfl

/-- Devices are taken out of groups that the handler then looks at. -/
theorem keeps_remove {t : MemberMgr} {m : Gid → UserSet} {h k : Handler} (out : Prop)
    (hframe : t = { s with groupMembers := m }) (hsub : h.subscribes g = false)
    (hunsub : h.unsubscribes g = false) (hlook : out → k.unsubscribes g = true)
    (hsame : ¬ out → ∀ b, b ∈ t.groupMembers g ↔ b ∈ s.groupMembers g)
    (hless : ∀ b, b ∈ t.groupMembers g → b ∈ s.groupMembers g) : s.Keeps h g t (some k) := by
  constructor
  · rw [hframe]
  · intro hh
    rw [hsub] at hh
    cases hh
  · intro hh
    rw [hunsub] at hh
    cases hh
  · by_cases hout : out
    · cases hex : t.isGroupExist g with
      | false => exact Or.inr (Or.inr ⟨rfl, hlook hout⟩)
      | true =>
          left
          obtain ⟨b, hb⟩ := (t.isGroupExist_iff g).mp hex
          exact ((s.isGroupExist_iff g).mpr ⟨b, hless b hb⟩).symm
    · exact Or.inl (isGroupExist_congr (hsame hout))

theorem keeps_offlineUpdate (gids : List Gid) :
    s.Keeps (.offlineUpdate a gids) g (s.next found (.offlineUpdate a gids)).1
      (s.next found (.offlineUpdate a gids)).2 := by
  obtain ⟨m, hframe⟩ := s.removeMemberForGroups_frame a gids
  have hmem : ∀ b, b ∈ (s.removeMemberForGroups a gids).groupMembers g ↔
      b ∈ s.groupMembers g ∧ ¬ (b = a ∧ g ∈ gids) :=
    fun b => s.mem_removeMemberForGroups b a g gids
  refine s.keeps_remove g (g ∈ gids) hframe rfl rfl ?_ ?_ ?_
  · intro hg
    simpa [Handler.unsubscribes] using hg
  · intro hg b
    exact (hmem b).trans ⟨fun hb => hb.1, fun hb => ⟨hb, fun h => hg h.2⟩⟩
  · exact fun b hb => ((hmem b).mp hb).1

theorem keeps_leaveUpdate (users : UserSet) :
    s.Keeps (.leaveUpdate uid g' users) g (s.next found (.leaveUpdate uid g' users)).1
      (s.next found (.leaveUpdate uid g' users)).2 := by
  obtain ⟨m, hframe⟩ := s.removeGroupMembers_frame g' users
  have hmem : ∀ b, b ∈ (s.removeGroupMembers users g').groupMembers g ↔
      b ∈ s.groupMembers g ∧ ¬ (g' = g ∧ b ∈ users) :=
    fun b => s.mem_removeGroupMembers b g g' users
  refine s.keeps_remove g (g' = g) hframe rfl rfl ?_ ?_ ?_
  · intro hg
    simpa [Handler.unsubscribes] using hg
  · intro hg b
    exact (hmem b).trans ⟨fun hb => hb.1, fun hb => ⟨hb, fun h => hg h.1⟩⟩
  · exact fun b hb => ((hmem b).mp hb).1

/-- A handler that looks whether a group exists remembers it if it does not. -/
theorem keeps_offlineCheck (gids chans : List Gid) :
    s.Keeps (.offlineCheck a gids chans) g (s.next found (.offlineCheck a gids chans)).1
      (s.next found (.offlineCheck a gids chans)).2 := by
  have hnext : (s.next found (.offlineCheck a gids chans)).1 = s := by
    cases gids <;> cases chans <;> rfl
  constructor
  · rw [hnext]
  · intro h
    cases h
  · intro h
    have hmem : g ∈ gids ∨ g ∈ chans := by simpa [Handler.unsubscribes] using h
    cases gids with
    | nil =>
        right
        rcases hmem with hmem | hmem
        · exact absurd hmem List.not_mem_nil
        · cases chans with
          | nil => exact absurd hmem List.not_mem_nil
          | cons g₀ chans => simpa [next, Handler.unsubscribes] using hmem
    | cons g₀ gids =>
        by_cases hg : g = g₀
        · subst hg
          cases hex : s.isGroupExist g with
          | true => exact Or.inl rfl
          | false => exact Or.inr (by simp [next, hex, Handler.unsubscribes])
        · right
          cases hex : s.isGroupExist g₀ <;>
            simpa [next, hex, hg, Handler.unsubscribes] using hmem
  · rw [hnext]
    exact Or.inl rfl

theorem keeps_leaveCheck : s.Keeps (.leaveCheck uid g') g (s.next found (.leaveCheck uid g')).1
    (s.next found (.leaveCheck uid g')).2 := by
  constructor
  · rfl
  · intro h
    cases h
  · intro h
    have hg : g' = g := by simpa [Handler.unsubscribes] using h
    subst hg
    cases hex : s.isGroupExist g' with
    | true => exact Or.inl rfl
    | false => exact Or.inr (by simp [next, hex, Handler.unsubscribes])
  · exact Or.inl rfl

/-- A call for another group. -/
theorem Keeps.other {s : MemberMgr} {h : Handler} {k : Option Handler} {g g' : Gid} {b : Bool}
    (hg : g ≠ g') (hsub : h.subscribes g = true → k.any (Handler.subscribes g) = true)
    (hunsub : h.unsubscribes g = true → k.any (Handler.unsubscribes g) = true) :
    s.Keeps h g { s with subscribed := Function.update s.subscribed g' b } k where
  subscribed := Function.update_of_ne hg _ _
  subscribes := hsub
  unsubscribes := fun hh => Or.inr (hunsub hh)
  exist := Or.inl rfl

/-- A step of a handler calls `GroupMsgSub` for the group, or keeps what is to be
done about its channel. -/
theorem next_channel (h : Handler) :
    (∃ b, h.call = some (g, b) ∧ (s.next found h).1 =
      { s with subscribed := Function.update s.subscribed g b }) ∨
    s.Keeps h g (s.next found h).1 (s.next found h).2 := by
  cases h with
  | online a =>
      right
      simp only [next]
      split <;> exact Keeps.idle rfl rfl rfl rfl
  | onlineRead a | offline a | offlineRead a => exact Or.inr (Keeps.idle rfl rfl rfl rfl)
  | enter uid g' | enterRead uid g' users | leave uid g' =>
      right
      simp only [next]
      split <;> exact Keeps.idle rfl rfl rfl rfl
  | onlineUpdate a details => exact Or.inr (s.keeps_onlineUpdate found a g details)
  | offlineUpdate a gids => exact Or.inr (s.keeps_offlineUpdate found a g gids)
  | offlineCheck a gids chans => exact Or.inr (s.keeps_offlineCheck found a g gids chans)
  | enterUpdate uid g' users role =>
      exact Or.inr (s.keeps_enterUpdate found uid g g' users role)
  | leaveUpdate uid g' users => exact Or.inr (s.keeps_leaveUpdate found uid g g' users)
  | leaveCheck uid g' => exact Or.inr (s.keeps_leaveCheck found uid g g')
  | enterSub uid g' | leaveUnsub uid g' =>
      by_cases hg : g = g'
      · subst hg
        exact Or.inl ⟨_, rfl, rfl⟩
      · right
        apply Keeps.other hg <;>
          simp [Handler.subscribes, Handler.unsubscribes, Ne.symm hg]
  | onlineSub a chans | offlineUnsub a chans =>
      cases chans with
      | nil => exact Or.inr (Keeps.idle rfl rfl rfl rfl)
      | cons g' chans =>
          by_cases hg : g = g'
          · subst hg
            exact Or.inl ⟨_, rfl, rfl⟩
          · right
            apply Keeps.other hg <;>
              simp [next, Handler.subscribes, Handler.unsubscribes, hg]

end Next

/-! ## The invariant -/

/-- A group with a device has its channel subscribed or a handler is about to
subscribe to it; a subscribed channel has a device in its group or a handler is
about to unsubscribe from it. -/
structure Settling (s : MemberMgr) (g : Gid) : Prop where
  missing : s.isGroupExist g = true → s.subscribed g = true ∨
    ∃ c, ∃ h ∈ s.ctxs c, h.subscribes g = true
  excess : s.subscribed g = true → s.isGroupExist g = true ∨
    ∃ c, ∃ h ∈ s.ctxs c, h.unsubscribes g = true

theorem Settling.of_le {s t : MemberMgr} {g : Gid} (h : s.Settling g)
    (hmembers : t.groupMembers = s.groupMembers) (hsubscribed : t.subscribed = s.subscribed)
    (hctxs : ∀ c, ∀ h ∈ s.ctxs c, h ∈ t.ctxs c) : t.Settling g := by
  have hexist : t.isGroupExist g = s.isGroupExist g := by
    unfold isGroupExist
    rw [hmembers]
  constructor
  · rw [hexist, hsubscribed]
    intro hex
    rcases h.missing hex with hsub | ⟨c, k, hk, hsub⟩
    · exact Or.inl hsub
    · exact Or.inr ⟨c, k, hctxs c k hk, hsub⟩
  · rw [hexist, hsubscribed]
    intro hsub
    rcases h.excess hsub with hex | ⟨c, k, hk, hunsub⟩
    · exact Or.inl hex
    · exact Or.inr ⟨c, k, hctxs c k hk, hunsub⟩

theorem Settling.post {s t : MemberMgr} {g : Gid} (h : s.Settling g) (c : ℕ) (k : Handler)
    (hmembers : t.groupMembers = s.groupMembers) (hsubscribed : t.subscribed = s.subscribed)
    (hctxs : t.ctxs = s.ctxs) : (t.post c k).Settling g := by
  refine h.of_le hmembers hsubscribed ?_
  intro c' h' hh'
  rw [post_ctxs, hctxs]
  by_cases hcc : c' = c
  · subst hcc
    rw [Function.update_self]
    exact List.mem_append_left [k] hh'
  · rwa [Function.update_of_ne hcc]

section Run

variable {pool : IoCtxPool} {s : MemberMgr} {c : ℕ} {found : Bool} {h : Handler}
  {rest : List Handler} {g : Gid}

/-- The handlers after a step: the successor is among them, and so are all others. -/
theorem mem_ctxs_succ {k : Handler} (hk : k ∈ (s.next found h).2) :
    k ∈ Function.update s.ctxs c ((s.next found h).2.toList ++ rest) c := by
  rw [Function.update_self]
  exact List.mem_append_left rest (Option.mem_toList.mpr hk)

theorem mem_ctxs_other (hc : s.ctxs c = h :: rest) {c' : ℕ} {k : Handler} (hk : k ∈ s.ctxs c')
    (hne : k ≠ h) : k ∈ Function.update s.ctxs c ((s.next found h).2.toList ++ rest) c' := by
  by_cases hcc : c' = c
  · subst hcc
    rw [hc] at hk
    rw [Function.update_self]
    exact List.mem_append_right _ ((List.mem_cons.mp hk).resolve_left hne)
  · rwa [Function.update_of_ne hcc]

/-- A handler that has `todo` keeps it through a step of `h`, if `h` passes it on. -/
theorem todo_run (hc : s.ctxs c = h :: rest) (todo : Handler → Bool)
    (hpass : todo h = true → (s.next found h).2.any todo = true)
    (hsome : ∃ c, ∃ k ∈ s.ctxs c, todo k = true) :
    ∃ c', ∃ k ∈ Function.update s.ctxs c ((s.next found h).2.toList ++ rest) c', todo k = true := by
  obtain ⟨c', k, hk, htodo⟩ := hsome
  by_cases hkh : k = h
  · subst hkh
    obtain ⟨k', hk', htodo'⟩ := (Option.any_eq_true _ _).mp (hpass htodo)
    exact ⟨c, k', mem_ctxs_succ hk', htodo'⟩
  · exact ⟨c', k, mem_ctxs_other hc hk hkh, htodo⟩

theorem any_handlers {todo : Handler → Bool} (hany : (s.handlers pool).any todo = true) :
    ∃ c, ∃ k ∈ s.ctxs c, todo k = true := by
  obtain ⟨k, hk, htodo⟩ := List.any_eq_true.mp hany
  obtain ⟨c, -, hkc⟩ := List.mem_flatMap.mp hk
  exact ⟨c, k, hkc, htodo⟩

/-- A handler that subscribes next has nothing to unsubscribe, and the other way
round. -/
theorem call_todo {b : Bool} (hcall : h.call = some (g, b)) :
    (if b then Handler.unsubscribes g else Handler.subscribes g) h = false := by
  cases h with
  | onlineSub a chans | offlineUnsub a chans =>
      cases chans <;> simp only [Handler.call, Option.some.injEq, Prod.mk.injEq,
        reduceCtorEq] at hcall
      rw [← hcall.2]
      rfl
  | enterSub uid g' | leaveUnsub uid g' =>
      simp only [Handler.call, Option.some.injEq, Prod.mk.injEq] at hcall
      rw [← hcall.2]
      rfl
  | _ => simp [Handler.call] at hcall

theorem Settling.run (hinv : s.Settling g) (hc : s.ctxs c = h :: rest)
    (hok : Timely pool s (.run c found)) :
    Settling { (s.next found h).1 with
      ctxs := Function.update s.ctxs c ((s.next found h).2.toList ++ rest) } g := by
  rcases s.next_channel found g h with ⟨b, hcall, hnext⟩ | hkeeps
  · -- the channel is subscribed or unsubscribed: the condition tells why it may be
    have htimely : s.isGroupExist g = b ∨
        (s.handlers pool).any (if b then Handler.unsubscribes g else Handler.subscribes g) := by
      simp only [Timely, timely, hc, List.head?_cons, Option.bind_some, hcall] at hok
      cases b <;> simpa [Bool.or_eq_true] using hok
    have htodo : s.isGroupExist g = b ∨ ∃ c',
        ∃ k ∈ Function.update s.ctxs c ((s.next found h).2.toList ++ rest) c',
          (if b then Handler.unsubscribes g else Handler.subscribes g) k = true := by
      rcases htimely with hex | hany
      · exact Or.inl hex
      · refine Or.inr (todo_run hc _ ?_ (any_handlers hany))
        intro hself
        rw [call_todo hcall] at hself
        cases hself
    rw [hnext]
    cases b with
    | true =>
        constructor
        · exact fun _ => Or.inl (Function.update_self g true s.subscribed)
        · exact fun _ => htodo
    | false =>
        constructor
        · intro hex
          right
          exact htodo.resolve_left fun hnot => Bool.noConfusion (hex.symm.trans hnot)
        · intro hsub
          exact absurd (Function.update_self g false s.subscribed) (by
            intro hfalse
            exact Bool.noConfusion (hsub.symm.trans hfalse))
  · have hsucc : ∀ todo : Handler → Bool, (s.next found h).2.any todo = true → ∃ c',
        ∃ k ∈ Function.update s.ctxs c ((s.next found h).2.toList ++ rest) c', todo k = true := by
      intro todo hany
      obtain ⟨k, hk, htodo⟩ := (Option.any_eq_true _ _).mp hany
      exact ⟨c, k, mem_ctxs_succ hk, htodo⟩
    constructor
    · intro hex
      rcases hkeeps.exist with hsame | ⟨-, hsub⟩ | ⟨hnot, -⟩
      · rcases hinv.missing (hsame.symm.trans hex) with hsub | hsome
        · exact Or.inl (hkeeps.subscribed.trans hsub)
        · exact Or.inr (todo_run hc _ hkeeps.subscribes hsome)
      · exact Or.inr (hsucc _ hsub)
      · exact Bool.noConfusion (hex.symm.trans hnot)
    · intro hsub
      rcases hkeeps.exist with hsame | ⟨hex, -⟩ | ⟨-, hunsub⟩
      · rcases hinv.excess (hkeeps.subscribed.symm.trans hsub) with hex | hsome
        · exact Or.inl (hsame.trans hex)
        · -- the handler may have found the group to exist
          cases hex : s.isGroupExist g with
          | true => exact Or.inl (hsame.trans hex)
          | false =>
              refine Or.inr (todo_run hc _ ?_ hsome)
              intro hself
              exact (hkeeps.unsubscribes hself).resolve_left (by simp [hex])
      · exact Or.inl hex
      · exact Or.inr (hsucc _ hunsub)

end Run

theorem Settling.step {pool : IoCtxPool} {s t : MemberMgr} {e : MemberEvent} {g : Gid}
    (hinv : s.Settling g) (hok : Timely pool s e) (hstep : MemberMgr.step pool s e = some t) :
    t.Settling g := by
  cases e with
  | userOnline a | userOffline a =>
      cases hstep
      exact hinv.post _ _ rfl rfl rfl
  | dbEnter uid g' role =>
      obtain ⟨rows, -, rfl⟩ := Option.map_eq_some_iff.mp hstep
      exact hinv.of_le rfl rfl fun _ _ => id
  | dbLeave uid g' =>
      simp only [MemberMgr.step] at hstep
      split at hstep
      · cases hstep
        exact hinv.of_le rfl rfl fun _ _ => id
      · cases hstep
  | deliver i =>
      simp only [MemberMgr.step] at hstep
      split at hstep
      · cases hstep
      · cases hstep
        exact hinv.post _ _ rfl rfl rfl
  | run c found =>
      simp only [MemberMgr.step] at hstep
      split at hstep
      · cases hstep
      · next h rest hc =>
        cases hstep
        exact hinv.run hc hok

theorem Settling.initial (db : Bytes → MemberRows) (g : Gid) : (initial db).Settling g := by
  constructor
  · intro h
    simp [MemberMgr.initial, isGroupExist] at h
  · intro h
    simp [MemberMgr.initial] at h

end MemberMgr

open MemberMgr

/-- Once all handlers have finished, the subscribed channels are those of the
groups with a device in the index, in every run whose steps meet the condition. -/
theorem channels_agree (pool : IoCtxPool) (db : Bytes → MemberRows) (es : List MemberEvent)
    (s : MemberMgr) (hrun : (machine pool).run (initial db) es = some s)
    (htimely : (machine pool).Meets (Timely pool) (initial db) es)
    (hdone : s.handlers pool = []) :
    ∀ g, s.subscribed g = true ↔ s.groupMembers g ≠ [] := by
  intro g
  have hinv : Tidy pool s ∧ s.Settling g := by
    refine (machine pool).run_invariant (fun s => Tidy pool s ∧ s.Settling g) ?_ ?_ htimely hrun
    · intro s e t h hok hstep
      exact ⟨h.1.step hstep, h.2.step hok hstep⟩
    · exact ⟨(Inv.initial pool db).tidy, Settling.initial db g⟩
  have hnone : ∀ todo : Handler → Bool, ¬ ∃ c, ∃ h ∈ s.ctxs c, todo h = true := by
    rintro todo ⟨c, h, hh, -⟩
    have hmem := hinv.1.mem_handlers hh
    rw [hdone] at hmem
    exact absurd hmem List.not_mem_nil
  have hexist : s.isGroupExist g = true ↔ s.groupMembers g ≠ [] := decide_eq_true_iff
  rw [← hexist]
  constructor
  · exact fun hsub => (hinv.2.excess hsub).resolve_right (hnone _)
  · exact fun hex => (hinv.2.missing hex).resolve_right (hnone _)

/-- The devices of two users, both members of group 7. -/
def twoMembers : Bytes → MemberRows :=
  Function.update oneMember [118, 118] (oneMember [117])

/-- The first device comes online and goes offline, and then the second comes
online. -/
def oneAfterTheOther : List MemberEvent :=
  [.userOnline ⟨[117], 1⟩, .run 1 true, .run 1 true, .run 1 true, .run 1 true, .run 1 true,
   .userOffline ⟨[117], 1⟩, .run 1 true, .run 1 true, .run 1 true, .run 1 true, .run 1 true,
   .run 1 true, .run 1 true,
   .userOnline ⟨[118, 118], 1⟩, .run 2 true, .run 2 true, .run 2 true, .run 2 true, .run 2 true]

theorem channels_agree_oneAfterTheOther :
    ∃ s, (machine fiveContexts).run (initial twoMembers) oneAfterTheOther = some s ∧
      s.subscribed 7 = true ∧ ∀ g, s.subscribed g = true ↔ s.groupMembers g ≠ [] := by
  have hsome : ((machine fiveContexts).run (initial twoMembers) oneAfterTheOther).isSome := by
    decide
  have hok : (machine fiveContexts).Meets (Timely fiveContexts) (initial twoMembers)
      oneAfterTheOther := by decide
  have hview : ((machine fiveContexts).run (initial twoMembers) oneAfterTheOther).map (fun s =>
      (s.handlers fiveContexts, s.subscribed 7)) = some ([], true) := by decide
  obtain ⟨s, hs⟩ := Option.isSome_iff_exists.mp hsome
  rw [hs, Option.map_some, Option.some.injEq, Prod.mk.injEq] at hview
  exact ⟨s, hs, hview.2,
    channels_agree fiveContexts twoMembers oneAfterTheOther s hs hok hview.1⟩

/-- The first device goes offline and its handler finds the group gone. Before it
unsubscribes, the second device comes online and subscribes. -/
def lastCrossesFirst : List MemberEvent :=
  [.userOnline ⟨[117], 1⟩, .run 1 true, .run 1 true, .run 1 true, .run 1 true, .run 1 true,
   .userOffline ⟨[117], 1⟩, .run 1 true, .run 1 true, .run 1 true, .run 1 true, .run 1 true,
   .userOnline ⟨[118, 118], 1⟩, .run 2 true, .run 2 true, .run 2 true, .run 2 true, .run 2 true,
   .run 1 true, .run 1 true]

/-- Without the condition a group can be left with a device online and its
channel not subscribed, though every read succeeds and nobody changes groups. -/
theorem channels_crossed :
    ¬ ∀ (pool : IoCtxPool) (db : Bytes → MemberRows) (es : List MemberEvent) (s : MemberMgr),
      (machine pool).run (initial db) es = some s → s.handlers pool = [] →
      ∀ g, s.subscribed g = true ↔ s.groupMembers g ≠ [] := by
  intro hclaim
  have hsome : ((machine fiveContexts).run (initial twoMembers) lastCrossesFirst).isSome := by
    decide
  have hview : ((machine fiveContexts).run (initial twoMembers) lastCrossesFirst).map (fun s =>
      (s.handlers fiveContexts, s.groupMembers 7, s.subscribed 7)) =
      some ([], [⟨[118, 118], 1⟩], false) := by decide
  obtain ⟨s, hs⟩ := Option.isSome_iff_exists.mp hsome
  rw [hs, Option.map_some, Option.some.injEq, Prod.mk.injEq, Prod.mk.injEq] at hview
  obtain ⟨hdone, hmembers, hsubscribed⟩ := hview
  have hiff := hclaim fiveContexts twoMembers lastCrossesFirst s hs hdone 7
  rw [hmembers, hsubscribed] at hiff
  exact Bool.noConfusion (hiff.mpr (List.cons_ne_nil _ _))

end BcmServer.Group
