import BcmServer.Offline.PushedUsers

/-!
# BcmServer.Offline.PushFlag — users without a push configuration

A user who has no account, or no device to push to, is flagged in the record, and
the flag is taken back when the user's tokens change.

* `flagged_left_alone`: a user who is flagged when a message is looked at is neither
  pushed to nor written.
* `classified_left_alone`: a user who is found so is written with the flag only, is
  not pushed to unless the old record has a push type, and is left alone by later
  messages.
* `noConfig_written`: such a user is written.
-/

namespace BcmServer.Offline

open BcmServer.Util BcmServer.Redis
open BcmServer.Group (Gid)

/-- Nothing is sent to a user, and no record of the user written. -/
def PushAction.LeavesAlone (action : PushAction) (uid : Bytes) : Prop :=
  ¬ action.pushes uid ∧ ∀ value, ¬ action.writes uid value

namespace PushServer

variable {srv : PushServer} {ans : PushAnswers} {answers : ℕ → PushAnswers} {m : GroupUserMsgs}
  {uid : Bytes} {gid : Gid} {gm : GroupMessageIdInfo} {groupMembers memberUids : UidSet}
  {vecDbList : List UInt32} {gu : GroupUserMessageIdInfo}

/-! ## Users with the flag -/

theorem flagged_message (srv : PushServer) (vecDbList : List UInt32) (gid : Gid)
    (memberUids : UidSet) (gm : GroupMessageIdInfo) (hask : ans.Asked)
    (hm : m.lookup uid = some gu) (hflag : gu.flagged = true) :
    (srv.handleMessage ans vecDbList gid memberUids gm m).1.lookup uid = some gu ∧
      ∀ action ∈ (srv.handleMessage ans vecDbList gid memberUids gm m).2,
        action.LeavesAlone uid := by
  -- a user with the flag is not selected, so neither looked up nor pushed to
  have hsel : selected gm (m.lookup uid) = none := by
    rw [hm, selected]
    simp [hflag]
  have hknown : uid ∉ (selectUsers gm m (gm.recipients memberUids)).2 := by
    rw [mem_noPushTypeUids, lookedUp, hsel]
    simp
  constructor
  · rcases handleMessage_cases srv ans vecDbList gid memberUids gm m with
      heq | ⟨r, _, _, hoff, heq, -, -⟩
    · rw [heq]
      exact hm
    · rw [heq, (getOffline_known hask hoff hknown).2]
      exact hm
  · intro action haction
    rcases handleMessage_action haction with ⟨hpush, hwrite⟩ | ⟨r, hoff, hpush, hwrite⟩
    · exact ⟨hpush uid, hwrite uid⟩
    · have hnone : r.offlineUids.lookup uid = none := by
        rw [(getOffline_known hask hoff hknown).1, hsel, ite_self]
      refine ⟨fun h => ?_, fun value h => ?_⟩
      · obtain ⟨_, hlookup, -⟩ := hpush uid h
        rw [hnone] at hlookup
        cases hlookup
      · obtain ⟨_, hlookup, -⟩ := hwrite uid value h
        rw [hnone] at hlookup
        cases hlookup

/-- A user whose record is flagged is left alone by all messages. -/
theorem flagged_left_alone (hask : ∀ i, (answers i).Asked) (hm : m.lookup uid = some gu)
    (hflag : gu.flagged = true) (i : ℕ) (gms : List GroupMessageIdInfo) :
    ∀ action ∈ (srv.handleMessages answers vecDbList gid memberUids i gms m).2,
      action.LeavesAlone uid := by
  induction gms generalizing i m with
  | nil => simp [handleMessages]
  | cons gm gms ih =>
      obtain ⟨hkept, halone⟩ := flagged_message srv vecDbList gid memberUids gm (hask i) hm hflag
      intro action haction
      rw [handleMessages, List.mem_append] at haction
      rcases haction with haction | haction
      · exact halone action haction
      · exact ih hkept (i + 1) action haction

/-! ## Users found without a push configuration -/

/-- `dbGetAccountsPushType` finds, while the message is processed, that the user has
no account, or no device to push to. -/
def Classified (srv : PushServer) (ans : PushAnswers) (groupMembers : UidSet)
    (gm : GroupMessageIdInfo) (groupUserMsgId : GroupUserMsgs) (uid : Bytes) : Prop :=
  ∃ part ∈ batches (selectUsers gm groupUserMsgId groupMembers).2 [], ∃ accounts missed,
    ans.getAccounts part = some (accounts, missed) ∧
      (uid ∈ missed ∨ ∃ a ∈ accounts, a.uid = uid ∧ ∃ dev,
        a.getDevice srv.numbers.masterId = some dev ∧
          dev.isDevicePushable (ans.now uid) = false)

theorem find?_uid {accounts : List Account} (h : (accounts.map Account.uid).Nodup) {a : Account}
    (ha : a ∈ accounts) : (accounts.find? fun b => b.uid = a.uid) = some a := by
  induction accounts with
  | nil => cases ha
  | cons b accounts ih =>
      rw [List.map_cons, List.nodup_cons] at h
      rcases List.mem_cons.mp ha with rfl | ha
      · simp
      · have hne : b.uid ≠ a.uid := fun heq => h.1 (heq ▸ List.mem_map_of_mem ha)
        simp [hne, ih h.2 ha]

/-- The record of such a user is flagged. -/
theorem classified_flagged (hask : ans.Asked) (hc : srv.Classified ans groupMembers gm m uid)
    {r : OfflineUsers}
    (h : srv.getOfflineAccountAndPushType ans groupMembers gid gm m = some r) :
    ∃ gu, r.offlineUids.lookup uid = some gu ∧ gu.flagged = true ∧
      r.groupUserMsgId.lookup uid = some gu ∧
      gu.pushType srv.numbers = ((m.lookup uid).getD .initial).pushType srv.numbers := by
  obtain ⟨part, hpart, accounts, missed, hget, hfound⟩ := hc
  obtain ⟨accounts', haccounts, hmap⟩ := Option.map_eq_some_iff.mp hget
  cases hmap
  obtain ⟨hnodup, hasked⟩ := hask part accounts haccounts
  have hin : uid ∈ part := by
    rcases hfound with hmissed | ⟨a, ha, rfl, -⟩
    · rw [mem_inOrder, Finset.mem_sdiff, List.mem_toFinset] at hmissed
      exact hmissed.1
    · exact hasked a ha
  have hjudged : ∀ o, srv.judged ans accounts uid o = some (o.getD .initial).flag := by
    intro o
    unfold judged
    rcases hfound with hmissed | ⟨a, ha, rfl, dev, hdev, hpushable⟩
    · rw [mem_inOrder, Finset.mem_sdiff, List.mem_toFinset, List.mem_toFinset] at hmissed
      have hnone : (accounts.find? fun a => a.uid = uid) = none := by
        rw [List.find?_eq_none]
        intro a ha hau
        exact hmissed.2 (List.mem_map.mpr ⟨a, ha, of_decide_eq_true hau⟩)
      rw [hnone]
    · rw [find?_uid hnodup ha]
      simp [byAccount, hdev, hpushable]
  obtain ⟨accounts'', haccounts'', hoffline, hcache⟩ := getOffline_lookedUp hask h hpart hin
  rw [haccounts] at haccounts''
  cases haccounts''
  rw [hjudged] at hoffline
  have hasked : uid ∈ (selectUsers gm m groupMembers).2 := by
    have hflat := List.mem_flatten.mpr ⟨part, hpart, hin⟩
    rwa [flatten_batches, List.nil_append] at hflat
  refine ⟨_, hoffline, GroupUserMessageIdInfo.flagged_flag _, ?_, ?_⟩
  · rw [hcache, hoffline, Option.some_or]
  · have hlooked := (mem_noPushTypeUids.mp hasked).2
    rw [GroupUserMessageIdInfo.pushType_flag]
    unfold lookedUp at hlooked
    cases hlookup : m.lookup uid with
    | none => rfl
    | some gu =>
        rw [hlookup, selected] at hlooked
        rw [selected]
        split at hlooked
        · cases hlooked
        · next hnot => simp [hnot]

theorem handleMessages_append (srv : PushServer) (answers : ℕ → PushAnswers)
    (vecDbList : List UInt32) (gid : Gid) (memberUids : UidSet) (i : ℕ)
    (gms gms' : List GroupMessageIdInfo) (m : GroupUserMsgs) :
    srv.handleMessages answers vecDbList gid memberUids i (gms ++ gms') m =
      let r := srv.handleMessages answers vecDbList gid memberUids i gms m
      let rest := srv.handleMessages answers vecDbList gid memberUids (i + gms.length) gms' r.1
      (rest.1, r.2 ++ rest.2) := by
  induction gms generalizing i m with
  | nil => simp [handleMessages]
  | cons gm gms ih => simp [handleMessages, ih, Nat.add_assoc, Nat.add_comm 1]

/-- A message among others, with what is in the map before it: the user is written
with the flag only, is pushed to only if the old record has a push type, and, when all
look-ups have succeeded, is left alone by the messages after it. -/
theorem classified_left_alone (srv : PushServer) {answers : ℕ → PushAnswers}
    (hask : ∀ i, (answers i).Asked) (vecDbList : List UInt32) (gid : Gid) (memberUids : UidSet)
    (before : List GroupMessageIdInfo) (gm : GroupMessageIdInfo) (after : List GroupMessageIdInfo)
    (groupUserMsgId : GroupUserMsgs) (uid : Bytes)
    (hc : srv.Classified (answers before.length) (gm.recipients memberUids) gm
      (srv.handleMessages answers vecDbList gid memberUids 0 before groupUserMsgId).1 uid) :
    ∃ m r rest,
      srv.handleMessages answers vecDbList gid memberUids 0 before groupUserMsgId = m ∧
      srv.handleMessage (answers before.length) vecDbList gid memberUids gm m.1 = r ∧
      srv.handleMessages answers vecDbList gid memberUids (before.length + 1) after r.1 = rest ∧
      (srv.handleMessages answers vecDbList gid memberUids 0 (before ++ gm :: after)
        groupUserMsgId).2 = m.2 ++ (r.2 ++ rest.2) ∧
      (∀ action ∈ r.2, ∀ value, action.writes uid value → ∃ gu,
        GroupUserMessageIdInfo.ofJson value = .ok gu ∧ gu.flagged = true ∧
          gu.lastMid = gm.lastMid) ∧
      (∀ action ∈ r.2, action.pushes uid →
        ((m.1.lookup uid).getD .initial).pushType srv.numbers ≠ []) ∧
      ((gm.type = PushPeopleType.toDesignatedPerson.value ∨
          gm.type = PushPeopleType.toAll.value) →
        (srv.getOfflineAccountAndPushType (answers before.length) (gm.recipients memberUids) gid gm
          m.1).isSome = true → ∀ action ∈ rest.2, action.LeavesAlone uid) := by
  refine ⟨_, _, _, rfl, rfl, rfl, ?_, ?_, ?_, ?_⟩
  · rw [handleMessages_append, Nat.zero_add]
    rfl
  · intro action haction value hwrite
    rcases handleMessage_action haction with ⟨-, hnone⟩ | ⟨r, hoff, -, hwrites⟩
    · exact absurd hwrite (hnone uid value)
    · obtain ⟨gu, hlookup, rfl⟩ := hwrites uid value hwrite
      obtain ⟨gu', hlookup', hflag, -, -⟩ := classified_flagged (hask _) hc hoff
      rw [hlookup, Option.some.injEq] at hlookup'
      subst hlookup'
      exact ⟨_, GroupUserMessageIdInfo.ofJson_toJson _, hflag, rfl⟩
  · intro action haction hpush
    rcases handleMessage_action haction with ⟨hnone, -⟩ | ⟨r, hoff, hpushes, -⟩
    · exact absurd hpush (hnone uid)
    · obtain ⟨gu, hlookup, hne⟩ := hpushes uid hpush
      obtain ⟨gu', hlookup', -, -, htype⟩ := classified_flagged (hask _) hc hoff
      rw [hlookup, Option.some.injEq] at hlookup'
      subst hlookup'
      rwa [htype] at hne
  · -- the map that the later messages get has the flag
    intro htype hsome
    obtain ⟨r, hoff⟩ := Option.isSome_iff_exists.mp hsome
    obtain ⟨gu, -, hflag, hcached, -⟩ := classified_flagged (hask _) hc hoff
    refine flagged_left_alone hask ?_ hflag (before.length + 1) after
    rw [handleMessage_fst htype hoff]
    exact hcached

/-- The user "u", whose device has nothing to push to -/
def withoutTokens : Account where
  uid := [117]
  devices := [⟨1, [], [], [], [], [], 0, ⟨1, [], 0, []⟩⟩]

def oneAccount : PushAnswers where
  accounts := fun uids => some (if uids = [[117]] then [withoutTokens] else [])
  now := fun _ => 0
  offlineServer := fun _ => []
  hmset := fun _ => true

theorem oneAccount_asked : oneAccount.Asked := by
  intro uids accounts h
  cases h
  split
  · next huids =>
    rw [huids]
    exact ⟨by decide, by decide⟩
  · exact ⟨List.nodup_nil, fun _ ha => nomatch ha⟩

def apnsServer : PushServer where
  numbers := ⟨1, 1, 2⟩
  config := ⟨true, [TYPE_SYSTEM_PUSH_APNS]⟩

def messageToAll (mid : UInt64) : GroupMessageIdInfo where
  lastMid := mid
  tm := 0
  type := PushPeopleType.toAll.value
  dbKey := []
  redisId := 0
  gmm := .initial

theorem classified_withoutTokens :
    apnsServer.Classified oneAccount {[117]} (messageToAll 5) ∅ [117] :=
  ⟨[[117]], by decide +kernel, [withoutTokens], [], by decide +kernel, Or.inr
    ⟨withoutTokens, List.mem_cons_self, rfl, _, rfl, by decide +kernel⟩⟩

theorem classified_left_alone_withoutTokens : ∃ r rest,
    apnsServer.handleMessage oneAccount [0] 7 {[117]} (messageToAll 5) ∅ = r ∧
    apnsServer.handleMessages (fun _ => oneAccount) [0] 7 {[117]} 1 [messageToAll 6] r.1 = rest ∧
    (∀ action ∈ r.2, ∀ value, action.writes [117] value → ∃ gu,
      GroupUserMessageIdInfo.ofJson value = .ok gu ∧ gu.flagged = true ∧ gu.lastMid = 5) ∧
    (∀ action ∈ r.2, ¬ action.pushes [117]) ∧ ∀ action ∈ rest.2, action.LeavesAlone [117] := by
  obtain ⟨m, r, rest, hm, hr, hrest, -, hwrites, hpushes, halone⟩ :=
    classified_left_alone apnsServer (fun _ => oneAccount_asked) [0] 7 {[117]} []
      (messageToAll 5) [messageToAll 6] ∅ [117] classified_withoutTokens
  subst hm
  refine ⟨r, rest, hr, hrest, hwrites, fun action haction hpush => ?_,
    halone (Or.inr rfl) (by decide +kernel)⟩
  exact hpushes action haction hpush (by decide +kernel)

/-- The record of a user without a push configuration is written. -/
theorem noConfig_written :
    ¬ ∀ (srv : PushServer) (ans : PushAnswers) (vecDbList : List UInt32) (gid : Gid)
      (memberUids : UidSet) (gm : GroupMessageIdInfo) (groupUserMsgId : GroupUserMsgs)
      (uid : Bytes), ans.Asked →
      srv.Classified ans (gm.recipients memberUids) gm groupUserMsgId uid →
      ∀ action ∈ (srv.handleMessage ans vecDbList gid memberUids gm groupUserMsgId).2,
        action.LeavesAlone uid := by
  intro h
  have halone := h apnsServer oneAccount [0] 7 {[117]} (messageToAll 5) ∅ [117] oneAccount_asked
    classified_withoutTokens
  have hwritten : (apnsServer.handleMessage oneAccount [0] 7 {[117]} (messageToAll 5) ∅).2.any
      (fun action => match action with
        | .hmset _ _ values res => res && values.any fun e => e.1 = [117]
        | _ => false) = true := by
    decide +kernel
  obtain ⟨action, haction, hmatch⟩ := List.any_eq_true.mp hwritten
  cases action with
  | sendNotification uid pushType notification => cases hmatch
  | postGroupMessage offlineSvrAddr gid mid destinations => cases hmatch
  | hdel redisId gid uids => cases hmatch
  | hmset redisId gid values res =>
      obtain ⟨hres, hvalues⟩ := Bool.and_eq_true_iff.mp hmatch
      obtain ⟨⟨uid, value⟩, hmem, huid⟩ := List.any_eq_true.mp hvalues
      have heq : uid = [117] := of_decide_eq_true huid
      subst heq
      exact (halone _ haction).2 value ⟨hres, hmem⟩

end PushServer

end BcmServer.Offline
