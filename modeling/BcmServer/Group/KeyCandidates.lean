import BcmServer.Group.OnlineMembers
import BcmServer.Lts.Loop
import Mathlib.Data.List.Rotate

/-!
# BcmServer.Group.KeyCandidates — who may distribute the keys of a group

`selectKeyDistributionCandidates` takes `count` of the members of a group that are online on
this server: all of them if there are not more, otherwise those from a random one on, round the
list. The loop moves on from master devices only, so it ends exactly if the next `count`
devices are master devices (`ends_sampling_iff`). The list comes from
`getLocalOnlineGroupMembers`, which keeps the master devices, and this is what the loop relies
on: it does not look for a master device itself. It also relies on the index to have a device
once (`groupMembers_nodup`).
-/

namespace BcmServer.Group

open BcmServer.Util BcmServer.Lts BcmServer.Dispatcher

/-- The online devices of a group, in the order of the set that holds them: `getGroupMembers` -/
structure OnlineGroupMembers where
  users : UserSet
  nodup : users.Nodup
deriving DecidableEq, Repr

namespace MemberMgr

/-- The devices of a group are a set. -/
def Sets (s : MemberMgr) : Prop := ∀ g, (s.groupMembers g).Nodup

variable {s t : MemberMgr}

theorem Sets.update (h : s.Sets) (g : Gid) {users : UserSet} (husers : users.Nodup) (g' : Gid) :
    (Function.update s.groupMembers g users g').Nodup := by
  by_cases hg : g' = g
  · rw [hg, Function.update_self]
    exact husers
  · rw [Function.update_of_ne hg]
    exact h g'

theorem Sets.insertMember (h : s.Sets) (g : Gid) (a : DispatchAddress) :
    (s.insertMember g a).Sets :=
  h.update g (h g).insert

theorem Sets.removeGroupMemberNoLock (h : s.Sets) (a : DispatchAddress) (g : Gid) :
    (s.removeGroupMemberNoLock a g).Sets :=
  h.update g ((h g).filter _)

/-- A loop over the index -/
theorem Sets.foldl {β : Type} {f : MemberMgr → β → MemberMgr}
    (hf : ∀ s x, s.Sets → (f s x).Sets) (h : s.Sets) (xs : List β) : (xs.foldl f s).Sets := by
  induction xs generalizing s with
  | nil => exact h
  | cons x xs ih => exact ih (hf s x h)

theorem Sets.loadGroups (h : s.Sets) (a : DispatchAddress) (details : List (Gid × Role))
    (chans : List Gid) : (s.loadGroups a details chans).1.Sets := by
  induction details generalizing s chans with
  | nil => exact h
  | cons d details ih =>
      simp only [MemberMgr.loadGroups]
      split
      · exact ih (h.insertMember _ _) _
      · exact ih h _

theorem Sets.next (h : s.Sets) (found : Bool) (handler : Handler) :
    (s.next found handler).1.Sets := by
  cases handler with
  | onlineUpdate a details =>
      have hload := h.loadGroups a details.rows []
      simp only [MemberMgr.next]
      split <;> next heq => rwa [heq] at hload
  | offlineUpdate a gids => exact h.foldl (fun _ _ h => h.removeGroupMemberNoLock _ _) gids
  | leaveUpdate uid g users => exact h.foldl (fun _ _ h => h.removeGroupMemberNoLock _ _) users
  | enterUpdate uid g users role =>
      simp only [MemberMgr.next]
      split
      · exact h.foldl (fun _ _ h => h.insertMember _ _) users
      · exact h
  | online a | enter uid g | leave uid g | enterRead uid g users =>
      simp only [MemberMgr.next]
      split <;> exact h
  | onlineSub a chans | offlineUnsub a chans => cases chans <;> exact h
  | offlineCheck a gids chans => cases gids <;> cases chans <;> exact h
  | offline _ | onlineRead _ | offlineRead _ | enterSub _ _ | leaveCheck _ _ | leaveUnsub _ _ =>
      exact h

theorem Sets.step {pool : IoCtxPool} {e : MemberEvent} (h : s.Sets)
    (hstep : MemberMgr.step pool s e = some t) : t.Sets := by
  cases e with
  | userOnline a => cases hstep; exact h
  | userOffline a => cases hstep; exact h
  | dbEnter uid g role =>
      obtain ⟨rows, -, rfl⟩ := Option.map_eq_some_iff.mp hstep
      exact h
  | dbLeave uid g =>
      simp only [MemberMgr.step] at hstep
      split at hstep <;> cases hstep
      exact h
  | deliver i =>
      simp only [MemberMgr.step] at hstep
      split at hstep <;> cases hstep
      exact h
  | run c found =>
      simp only [MemberMgr.step] at hstep
      split at hstep <;> cases hstep
      exact h.next found _

/-- In every run, the devices of a group that the index has are a set. -/
theorem groupMembers_nodup (pool : IoCtxPool) (db : Bytes → MemberRows) (es : List MemberEvent)
    (hrun : (machine pool).run (initial db) es = some s) (g : Gid) : (s.groupMembers g).Nodup := by
  have hany : (machine pool).Meets (fun _ _ => True) (initial db) es :=
    (machine pool).meets_of_forall (fun _ _ => trivial) _ es
  have hstep : ∀ s e t, s.Sets → True → (machine pool).step s e = some t → t.Sets :=
    fun _ _ _ h _ => h.step
  exact (machine pool).run_invariant Sets hstep (fun _ => List.nodup_nil) hany hrun g

end MemberMgr

namespace GroupMsgService

variable (masterId : UInt32)

/-- The loop of `getLocalOnlineGroupMembers` -/
def keepMasters (count : ℕ) : UserSet → UserSet → UserSet
  | users, [] => users
  | users, a :: tmpUsers =>
      -- a count of zero is no bound
      if 0 < count ∧ count ≤ users.length then users
      else keepMasters count (if a.deviceid = masterId then users ++ [a] else users) tmpUsers

/-- `count` many at most, or all if it is zero -/
def getLocalOnlineGroupMembers (members : OnlineGroupMembers) (count : ℕ) : UserSet :=
  keepMasters masterId count [] members.users

theorem keepMasters_zero (users tmpUsers : UserSet) :
    keepMasters masterId 0 users tmpUsers =
      users ++ tmpUsers.filter fun a => a.deviceid = masterId := by
  induction tmpUsers generalizing users with
  | nil => simp [keepMasters]
  | cons a tmpUsers ih =>
      rw [keepMasters, if_neg (by simp), ih]
      by_cases ha : a.deviceid = masterId
      · simp [ha]
      · simp [ha]

theorem getLocalOnlineGroupMembers_zero (members : OnlineGroupMembers) :
    getLocalOnlineGroupMembers masterId members 0 =
      members.users.filter fun a => a.deviceid = masterId :=
  keepMasters_zero masterId [] members.users

end GroupMsgService

namespace KeyCandidates

/-- The variables of the loop -/
structure Sampling where
  index : ℕ
  candidates : UserSet := []
deriving DecidableEq, Repr

variable (masterId : UInt32) (users : UserSet) (count : ℕ)

/-- The body of the loop -/
def sample (s : Sampling) : Sampling :=
  match users[s.index]? with
  | some a =>
      -- a device that is not a master device is not passed over
      if a.deviceid = masterId then ⟨(s.index + 1) % users.length, s.candidates.insert a⟩ else s
  | none => s

/-- A round: the condition is looked at after the body. -/
def round (s : Sampling) : Bool × Sampling :=
  let s' := sample masterId users s
  (decide (count ≤ s'.candidates.length), s')

/-- What has been taken in `k` moves from `i` on -/
def taken (i k : ℕ) : Sampling :=
  ⟨(i + k) % users.length, ((users.rotate i).take k).reverse⟩

variable {masterId users count} {i k : ℕ}

theorem length_taken (hk : k ≤ users.length) : (taken users i k).candidates.length = k := by
  simp [taken, hk]

theorem nodup_taken (hnodup : users.Nodup) : (taken users i k).candidates.Nodup :=
  List.nodup_reverse.mpr ((List.nodup_rotate.mpr hnodup).sublist (List.take_sublist _ _))

theorem mem_users_of_taken {a : DispatchAddress} (ha : a ∈ (taken users i k).candidates) :
    a ∈ users :=
  List.mem_rotate.mp (List.mem_of_mem_take (List.mem_reverse.mp ha))

theorem getElem?_taken (hk : k < users.length) :
    users[(taken users i k).index]? = (users.rotate i)[k]? := by
  rw [List.getElem?_rotate hk, taken, Nat.add_comm]

theorem sample_master (hnodup : users.Nodup) {a : DispatchAddress}
    (ha : (users.rotate i)[k]? = some a) (hmaster : a.deviceid = masterId) :
    sample masterId users (taken users i k) = taken users i (k + 1) := by
  obtain ⟨hk, hget⟩ := List.getElem?_eq_some_iff.mp ha
  have hlt : k < users.length := by simpa using hk
  have htake : (users.rotate i).take (k + 1) = (users.rotate i).take k ++ [a] := by
    rw [List.take_succ_eq_append_getElem hk, hget]
  have hfresh : a ∉ ((users.rotate i).take k).reverse := by
    have hnd : ((users.rotate i).take (k + 1)).Nodup :=
      (List.nodup_rotate.mpr hnodup).sublist (List.take_sublist _ _)
    rw [htake] at hnd
    rw [List.mem_reverse]
    exact fun hmem => (List.nodup_append.mp hnd).2.2 a hmem a (List.mem_singleton_self a) rfl
  rw [sample, getElem?_taken hlt, ha]
  simp only [hmaster, if_true]
  rw [taken, taken, htake, List.insert_of_not_mem hfresh, List.reverse_append]
  simp [Nat.add_assoc]

theorem sample_slave {a : DispatchAddress} (hk : k < users.length)
    (ha : (users.rotate i)[k]? = some a) (hslave : a.deviceid ≠ masterId) :
    sample masterId users (taken users i k) = taken users i k := by
  rw [sample, getElem?_taken hk, ha]
  simp [hslave]

/-- A round at a master device: one more is taken. -/
theorem round_master (hnodup : users.Nodup) {a : DispatchAddress}
    (ha : (users.rotate i)[k]? = some a) (hmaster : a.deviceid = masterId) :
    round masterId users count (taken users i k) =
      (decide (count ≤ k + 1), taken users i (k + 1)) := by
  have hk : k < users.length := by
    simpa using (List.getElem?_eq_some_iff.mp ha).1
  rw [round, sample_master hnodup ha hmaster, length_taken hk]

/-- A round at another device: nothing happens. -/
theorem round_slave {a : DispatchAddress} (hk : k < users.length)
    (ha : (users.rotate i)[k]? = some a) (hslave : a.deviceid ≠ masterId) :
    round masterId users count (taken users i k) = (decide (count ≤ k), taken users i k) := by
  rw [round, sample_slave hk ha hslave, length_taken hk.le]

theorem getElem?_master (hcount : count ≤ users.length)
    (hmaster : ∀ a ∈ (users.rotate i).take count, a.deviceid = masterId) (hk : k < count) :
    ∃ a, (users.rotate i)[k]? = some a ∧ a.deviceid = masterId := by
  have hlt : k < (users.rotate i).length := by
    rw [List.length_rotate]
    omega
  refine ⟨(users.rotate i)[k], List.getElem?_eq_getElem hlt, hmaster _ ?_⟩
  exact List.mem_take_iff_getElem.mpr ⟨k, by omega, rfl⟩

/-- The loop takes `count` devices if they are master devices. -/
theorem exits_taken (hnodup : users.Nodup) (hcount : count ≤ users.length)
    (hmaster : ∀ a ∈ (users.rotate i).take count, a.deviceid = masterId) (d : ℕ)
    (hk : k + d + 1 = count) :
    Exits (round masterId users count) (taken users i k) (taken users i count) := by
  obtain ⟨a, hget, ha⟩ := getElem?_master hcount hmaster (k := k) (by omega)
  have hround : round masterId users count (taken users i k) =
      (decide (count ≤ k + 1), taken users i (k + 1)) := round_master hnodup hget ha
  induction d generalizing k a with
  | zero =>
      -- the last of the `count` devices
      obtain rfl : k + 1 = count := hk
      have hleft : (round masterId users (k + 1) (taken users i k)).1 = true := by
        rw [hround]
        simp
      have hexits := exits_of_left hleft
      rwa [hround] at hexits
  | succ d ih =>
      have hstay : (round masterId users count (taken users i k)).1 = false := by
        rw [hround]
        simp only [decide_eq_false_iff_not]
        omega
      rw [exits_next_iff hstay, hround]
      obtain ⟨b, hget', hb⟩ := getElem?_master hcount hmaster (k := k + 1) (by omega)
      exact ih (by omega) b hget' hb (round_master hnodup hget' hb)

/-- The loop does not get past a device that is not a master device. -/
theorem not_ends_of_slave (hnodup : users.Nodup) {a : DispatchAddress}
    (ha : a ∈ (users.rotate i).take count) (hslave : a.deviceid ≠ masterId) :
    ¬ Ends (round masterId users count) (taken users i 0) := by
  obtain ⟨m, hm, hget⟩ := List.mem_take_iff_getElem.mp ha
  have hlt : m < count ∧ m < users.length := by simpa using hm
  have hgetm : (users.rotate i)[m]? = some a := List.getElem?_eq_some_iff.mpr ⟨_, hget⟩
  suffices hstep : ∀ s, (∃ k ≤ m, s = taken users i k) →
      (round masterId users count s).1 = false ∧
        ∃ k ≤ m, (round masterId users count s).2 = taken users i k from
    not_ends hstep ⟨0, Nat.zero_le _, rfl⟩
  rintro s ⟨k, hk, rfl⟩
  have hklt : k < (users.rotate i).length := by
    rw [List.length_rotate]
    omega
  have hgetk : (users.rotate i)[k]? = some (users.rotate i)[k] := List.getElem?_eq_getElem hklt
  by_cases hmaster : (users.rotate i)[k].deviceid = masterId
  · -- the device of this round is another one, before the slave
    have hne : k ≠ m := by
      rintro rfl
      rw [hgetm, Option.some.injEq] at hgetk
      exact hslave (hgetk ▸ hmaster)
    rw [round_master hnodup hgetk hmaster]
    exact ⟨decide_eq_false (by omega), k + 1, by omega, rfl⟩
  · rw [round_slave (by omega) hgetk hmaster]
    exact ⟨decide_eq_false (by omega), k, hk, rfl⟩

/-- On a list of at least `count` devices, the loop ends exactly if the `count` devices from the
first one on are master devices. -/
theorem ends_sampling_iff (hnodup : users.Nodup) (hpos : 0 < count)
    (hcount : count ≤ users.length) :
    Ends (round masterId users count) (taken users i 0) ↔
      ∀ a ∈ (users.rotate i).take count, a.deviceid = masterId := by
  constructor
  · intro hends a ha
    by_contra hslave
    exact not_ends_of_slave hnodup ha hslave hends
  · intro hmaster
    exact ⟨_, exits_taken hnodup hcount hmaster (count - 1) (by omega)⟩

end KeyCandidates

namespace GroupManagerController

variable (masterId : UInt32) (rand : UInt32 → ℕ)

/-- `selectKeyDistributionCandidates`, with so many rounds of its loop at most. `rand` is the first
number of the generator that `srand` sets up. -/
def selectKeyDistributionCandidates (members : OnlineGroupMembers) (seed : UInt32)
    (count rounds : ℕ) : Option UserSet :=
  if count = 0 then some []
  else
    let users := GroupMsgService.getLocalOnlineGroupMembers masterId members 0
    -- not more than are wanted: all of them
    if users.length ≤ count then some (users.foldl (fun candidates a => candidates.insert a) [])
    else
      (loop (KeyCandidates.round masterId users count) rounds
        ⟨rand seed % users.length, []⟩).map KeyCandidates.Sampling.candidates

variable {masterId rand} {members : OnlineGroupMembers} {seed : UInt32} {count rounds : ℕ}

/-- The masters of a group, as `getLocalOnlineGroupMembers` returns them -/
theorem mem_masters {a : DispatchAddress} :
    a ∈ GroupMsgService.getLocalOnlineGroupMembers masterId members 0 ↔
      a ∈ members.users ∧ a.deviceid = masterId := by
  simp [GroupMsgService.getLocalOnlineGroupMembers_zero]

theorem nodup_masters (masterId : UInt32) (members : OnlineGroupMembers) :
    (GroupMsgService.getLocalOnlineGroupMembers masterId members 0).Nodup := by
  rw [GroupMsgService.getLocalOnlineGroupMembers_zero]
  exact members.nodup.filter _

theorem length_masters :
    (GroupMsgService.getLocalOnlineGroupMembers masterId members 0).length =
      members.users.countP fun a => a.deviceid = masterId := by
  rw [GroupMsgService.getLocalOnlineGroupMembers_zero, List.countP_eq_length_filter]

/-- The loop of `selectKeyDistributionCandidates` takes the next `count` masters. -/
theorem exits_masters (hpos : 0 < count)
    (hcount : count ≤ (GroupMsgService.getLocalOnlineGroupMembers masterId members 0).length)
    (i : ℕ) :
    let users := GroupMsgService.getLocalOnlineGroupMembers masterId members 0
    Exits (KeyCandidates.round masterId users count) ⟨i % users.length, []⟩
      (KeyCandidates.taken users i count) := by
  intro users
  have hmaster : ∀ a ∈ (users.rotate i).take count, a.deviceid = masterId := fun a ha =>
    (mem_masters.mp (List.mem_rotate.mp (List.mem_of_mem_take ha))).2
  exact KeyCandidates.exits_taken (nodup_masters _ _) hcount hmaster (k := 0) (count - 1) (by omega)

/-- `insert` of a list without repetition -/
theorem foldl_insert (users candidates : UserSet) (h : (candidates ++ users).Nodup) :
    users.foldl (fun candidates a => candidates.insert a) candidates =
      users.reverse ++ candidates := by
  induction users generalizing candidates with
  | nil => simp
  | cons a users ih =>
      have hperm : (candidates ++ a :: users).Perm (a :: candidates ++ users) := List.perm_middle
      have hnodup := hperm.nodup_iff.mp h
      have hfresh : a ∉ candidates := fun ha =>
        (List.nodup_cons.mp hnodup).1 (List.mem_append_left users ha)
      rw [List.foldl_cons, List.insert_of_not_mem hfresh, ih _ hnodup]
      simp

/-- The selection of candidates ends. -/
theorem candidates_returned (masterId : UInt32) (rand : UInt32 → ℕ) (members : OnlineGroupMembers)
    (seed : UInt32) (count : ℕ) :
    ∃ rounds candidates,
      selectKeyDistributionCandidates masterId rand members seed count rounds =
        some candidates := by
  simp only [selectKeyDistributionCandidates]
  split
  · exact ⟨0, _, rfl⟩
  next hcount =>
  split
  · exact ⟨0, _, rfl⟩
  next hlength =>
  obtain ⟨rounds, hrounds⟩ :=
    exits_masters (Nat.pos_of_ne_zero hcount) (Nat.le_of_not_le hlength) (rand seed)
  exact ⟨rounds, _, Option.map_eq_some_iff.mpr ⟨_, hrounds, rfl⟩⟩

/-- The candidates are `count` master devices of the group, or all of them. -/
theorem candidates_masters {candidates : UserSet}
    (h : selectKeyDistributionCandidates masterId rand members seed count rounds =
      some candidates) :
    candidates.Nodup ∧
    candidates.length = min count (members.users.countP fun a => a.deviceid = masterId) ∧
    ∀ a ∈ candidates, a ∈ members.users ∧ a.deviceid = masterId := by
  have hnodup := nodup_masters masterId members
  simp only [selectKeyDistributionCandidates] at h
  simp only [← length_masters, ← mem_masters]
  split at h
  · next hzero =>
    obtain rfl := Option.some.inj h
    simp [hzero]
  next hcount =>
  split at h
  · next hlength =>
    obtain rfl := Option.some.inj h
    rw [foldl_insert _ _ hnodup, List.append_nil]
    exact ⟨List.nodup_reverse.mpr hnodup, by simpa using hlength, fun a => List.mem_reverse.mp⟩
  next hlength =>
  -- the loop: it is left with the devices that `exits_masters` names
  have hle := Nat.le_of_not_le hlength
  obtain ⟨s, hs, rfl⟩ := Option.map_eq_some_iff.mp h
  have htaken := exits_masters (Nat.pos_of_ne_zero hcount) hle (rand seed)
  obtain rfl := exits_unique ⟨rounds, hs⟩ htaken
  exact ⟨KeyCandidates.nodup_taken hnodup,
    by rw [KeyCandidates.length_taken hle, Nat.min_eq_left hle],
    fun a => KeyCandidates.mem_users_of_taken⟩

/-- Three masters and a slave -/
private def fourDevices : OnlineGroupMembers :=
  ⟨[⟨[97], 1⟩, ⟨[97], 2⟩, ⟨[98], 1⟩, ⟨[99], 1⟩], by decide⟩

/-- From the last master on, round the list -/
theorem candidates_masters_two :
    selectKeyDistributionCandidates 1 (fun _ => 5) fourDevices 7 2 2 =
        some [⟨[97], 1⟩, ⟨[99], 1⟩] ∧
    [(⟨[97], 1⟩ : DispatchAddress), ⟨[99], 1⟩].length =
      min 2 (fourDevices.users.countP fun a => a.deviceid = 1) :=
  have h : selectKeyDistributionCandidates 1 (fun _ => 5) fourDevices 7 2 2 =
      some [⟨[97], 1⟩, ⟨[99], 1⟩] := by decide +kernel
  ⟨h, (candidates_masters h).2.1⟩

end GroupManagerController

end BcmServer.Group
