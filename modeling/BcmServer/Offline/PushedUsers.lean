import BcmServer.Offline.PushMessage

/-!
# BcmServer.Offline.PushedUsers — what a message does for one user

The functions of `PushMessage` go through all users of a message; each of them is
said here for one user at a time: what is made of the record
(`lookup_dbGetAccountsPushType`, `lookup_batchLoop`, `lookup_selectUsers`,
`getOffline_known`, `getOffline_lookedUp`), and what is done
(`handleMessage_action`).
-/

namespace BcmServer.Offline

open BcmServer.Util BcmServer.Redis
open BcmServer.Group (Gid)

/-! ## Looking up how to push -/

/-- The database answers with accounts it was asked for, each at most once. -/
def PushAnswers.Asked (ans : PushAnswers) : Prop :=
  ∀ uids accounts, ans.accounts uids = some accounts →
    (accounts.map Account.uid).Nodup ∧ ∀ a ∈ accounts, a.uid ∈ uids

namespace PushServer

variable {srv : PushServer} {ans : PushAnswers} {m m' : GroupUserMsgs} {uid : Bytes}

/-- What is made of the record of a user with an account -/
def byAccount (srv : PushServer) (ans : PushAnswers) (a : Account)
    (o : Option GroupUserMessageIdInfo) : Option GroupUserMessageIdInfo :=
  match a.getDevice srv.numbers.masterId with
  | none => o
  | some dev =>
      if !dev.isDevicePushable (ans.now a.uid) then some (o.getD .initial).flag
      else o.map fun gu => gu.withDevice a.uid dev

/-- What is made of the record of a user who is looked up -/
def judged (srv : PushServer) (ans : PushAnswers) (accounts : List Account) (uid : Bytes)
    (o : Option GroupUserMessageIdInfo) : Option GroupUserMessageIdInfo :=
  match accounts.find? fun a => a.uid = uid with
  | none => some (o.getD .initial).flag
  | some a => srv.byAccount ans a o

theorem lookup_mergeAccount (a : Account) : (srv.mergeAccount ans m a).lookup uid =
    if a.uid = uid then srv.byAccount ans a (m.lookup uid) else m.lookup uid := by
  unfold mergeAccount byAccount
  by_cases hu : a.uid = uid
  · subst hu
    rw [if_pos rfl]
    cases a.getDevice srv.numbers.masterId with
    | none => rfl
    | some dev =>
        dsimp only
        split
        · exact AList.lookup_insert _
        · cases hlookup : m.lookup a.uid with
          | none => exact hlookup
          | some gu => exact AList.lookup_insert _
  · rw [if_neg hu]
    cases a.getDevice srv.numbers.masterId with
    | none => rfl
    | some dev =>
        dsimp only
        split
        · exact AList.lookup_insert_ne (Ne.symm hu)
        · split
          · rfl
          · exact AList.lookup_insert_ne (Ne.symm hu)

theorem lookup_mergeAccounts {accounts : List Account} (h : (accounts.map Account.uid).Nodup) :
    (accounts.foldl (srv.mergeAccount ans) m).lookup uid =
      match accounts.find? fun a => a.uid = uid with
      | none => m.lookup uid
      | some a => srv.byAccount ans a (m.lookup uid) := by
  induction accounts generalizing m with
  | nil => rfl
  | cons a accounts ih =>
      rw [List.map_cons, List.nodup_cons] at h
      rw [List.foldl_cons, ih h.2, List.find?_cons, lookup_mergeAccount]
      by_cases hu : a.uid = uid
      · -- no later account has the uid, so the record is made once
        have hnone : (accounts.find? fun a => a.uid = uid) = none := by
          rw [List.find?_eq_none]
          intro b hb hbu
          refine h.1 (List.mem_map.mpr ⟨b, hb, ?_⟩)
          rw [hu]
          exact of_decide_eq_true hbu
        simp [hu, hnone]
      · simp [hu]

theorem lookup_setNoConfigs (missed : List Bytes) : (missed.foldl setNoConfig m).lookup uid =
    if uid ∈ missed then some ((m.lookup uid).getD .initial).flag else m.lookup uid := by
  induction missed generalizing m with
  | nil => rfl
  | cons u missed ih =>
      rw [List.foldl_cons, ih]
      by_cases hu : uid = u
      · subst hu
        simp [setNoConfig, GroupUserMessageIdInfo.flag]
      · simp [setNoConfig, hu, AList.lookup_insert_ne hu]

/-- What a look-up does to the record of a user -/
theorem lookup_dbGetAccountsPushType (hask : ans.Asked) {uids missedUids missedUids' : List Bytes}
    (h : srv.dbGetAccountsPushType ans uids m missedUids = some (m', missedUids')) :
    ∃ accounts, ans.accounts uids = some accounts ∧ ∀ uid, m'.lookup uid =
      if uid ∈ uids then srv.judged ans accounts uid (m.lookup uid) else m.lookup uid := by
  unfold dbGetAccountsPushType PushAnswers.getAccounts at h
  cases haccounts : ans.accounts uids with
  | none =>
      rw [haccounts] at h
      cases h
  | some accounts =>
      obtain ⟨hnodup, hasked⟩ := hask uids accounts haccounts
      rw [haccounts] at h
      cases h
      refine ⟨accounts, rfl, fun uid => ?_⟩
      rw [lookup_mergeAccounts hnodup, lookup_setNoConfigs, judged]
      cases hfind : accounts.find? fun a => a.uid = uid with
      | none =>
          have hnot : uid ∉ accounts.map Account.uid := by
            intro hmem
            obtain ⟨a, ha, hau⟩ := List.mem_map.mp hmem
            have hne := List.find?_eq_none.mp hfind a ha
            simp [hau] at hne
          simp [hnot]
      | some a =>
          have hmem := List.mem_of_find?_eq_some hfind
          have hau : a.uid = uid := by simpa using List.find?_some hfind
          have hfound : uid ∈ accounts.map Account.uid := List.mem_map.mpr ⟨a, hmem, hau⟩
          have hin : uid ∈ uids := hau ▸ hasked a hmem
          simp [hfound, hin]

/-- The users of each look-up of `dbBatchGetAccountsPushType` -/
def batches : List Bytes → List Bytes → List (List Bytes)
  | [], partUids => if partUids.isEmpty then [] else [partUids]
  | uid :: uids, partUids =>
      if 20 ≤ (partUids ++ [uid]).length then (partUids ++ [uid]) :: batches uids []
      else batches uids (partUids ++ [uid])

theorem flatten_batches (uids partUids : List Bytes) :
    (batches uids partUids).flatten = partUids ++ uids := by
  induction uids generalizing partUids with
  | nil =>
      rw [batches]
      split
      · next h => simp [List.isEmpty_iff.mp h]
      · simp
  | cons uid uids ih =>
      rw [batches]
      split
      · simp [ih]
      · simp [ih]

/-- What the look-ups do to the record of a user -/
theorem lookup_batchLoop (hask : ans.Asked) {uids partUids missedUids missedUids' : List Bytes}
    (hnodup : (partUids ++ uids).Nodup)
    (h : srv.batchLoop ans uids partUids m missedUids = some (m', missedUids')) (uid : Bytes) :
    (uid ∉ partUids ++ uids → m'.lookup uid = m.lookup uid) ∧
      ∀ part ∈ batches uids partUids, uid ∈ part → ∃ accounts, ans.accounts part = some accounts ∧
        m'.lookup uid = srv.judged ans accounts uid (m.lookup uid) := by
  induction uids generalizing partUids m missedUids with
  | nil =>
      rw [batchLoop] at h
      rw [batches, List.append_nil]
      split at h
      · next hempty =>
        cases h
        simp [hempty]
      · next hne =>
        obtain ⟨accounts, haccounts, hlookup⟩ := lookup_dbGetAccountsPushType hask h
        simp only [hne, Bool.false_eq_true, if_false, List.mem_singleton, forall_eq]
        refine ⟨fun hnot => ?_, fun hin => ⟨accounts, haccounts, ?_⟩⟩
        · rw [hlookup, if_neg hnot]
        · rw [hlookup, if_pos hin]
  | cons u uids ih =>
      have hsplit : partUids ++ u :: uids = (partUids ++ [u]) ++ uids := by simp
      rw [hsplit] at hnodup ⊢
      rw [batchLoop] at h
      rw [batches]
      split at h
      · next hfull =>
        rw [if_pos hfull]
        split at h
        · cases h
        · next m₁ missed₁ hget =>
          obtain ⟨accounts, haccounts, hlookup⟩ := lookup_dbGetAccountsPushType hask hget
          -- the users of this look-up are not among those of the later ones
          obtain ⟨-, hnodupRest, hdisj⟩ := List.nodup_append.mp hnodup
          have hrest : ([] ++ uids).Nodup := hnodupRest
          obtain ⟨hsame, hjudged⟩ := ih hrest h
          constructor
          · intro hnot
            rw [List.mem_append, not_or] at hnot
            rw [hsame (by simpa using hnot.2), hlookup, if_neg hnot.1]
          · intro part hpart hin
            rcases List.mem_cons.mp hpart with rfl | hpart
            · have hnot : uid ∉ uids := fun hmem => hdisj uid hin uid hmem rfl
              refine ⟨accounts, haccounts, ?_⟩
              rw [hsame (by simpa using hnot), hlookup, if_pos hin]
            · obtain ⟨accounts', haccounts', hlookup'⟩ := hjudged part hpart hin
              have hmem : uid ∈ uids := by
                have hflat := List.mem_flatten.mpr ⟨part, hpart, hin⟩
                rwa [flatten_batches] at hflat
              have hnot : uid ∉ partUids ++ [u] := fun hin' => hdisj uid hin' uid hmem rfl
              refine ⟨accounts', haccounts', ?_⟩
              rw [hlookup', hlookup, if_neg hnot]
      · next hfull =>
        rw [if_neg hfull]
        exact ih hnodup h

end PushServer

/-! ## Who is offline -/

/-- What goes into `offlineUids` for a member with a record or none -/
def selected (gm : GroupMessageIdInfo) (o : Option GroupUserMessageIdInfo) :
    Option GroupUserMessageIdInfo :=
  match o with
  | some gu => if gm.lastMid ≤ gu.lastMid || gu.flagged then none else some gu
  | none => some { GroupUserMessageIdInfo.initial with lastMid := gm.lastMid }

/-- The member is looked up. -/
def lookedUp (gm : GroupMessageIdInfo) (o : Option GroupUserMessageIdInfo) : Bool :=
  (selected gm o).any GroupUserMessageIdInfo.pushUnknown

section Select

variable {gm : GroupMessageIdInfo} {m : GroupUserMsgs} {s : GroupUserMsgs × List Bytes}
  {uid : Bytes}

theorem selectUser_eq : selectUser gm m s uid =
    match selected gm (m.lookup uid) with
    | none => s
    | some gu => (s.1.insert uid gu, if gu.pushUnknown then s.2 ++ [uid] else s.2) := by
  unfold selectUser selected
  cases m.lookup uid with
  | none => rfl
  | some gu =>
      dsimp only
      by_cases hmid : gm.lastMid ≤ gu.lastMid
      · simp [hmid]
      · by_cases hflag : gu.flagged = true
        · simp [hflag]
        · simp [hmid, hflag]

theorem lookup_selectLoop (l : List Bytes) : (l.foldl (selectUser gm m) s).1.lookup uid =
    (if uid ∈ l then selected gm (m.lookup uid) else none).or (s.1.lookup uid) := by
  induction l generalizing s with
  | nil => simp
  | cons u l ih =>
      rw [List.foldl_cons, ih, selectUser_eq]
      by_cases hu : uid = u
      · subst hu
        cases hsel : selected gm (m.lookup uid) with
        | none => simp
        | some gu =>
            by_cases hl : uid ∈ l
            · simp [hl]
            · simp [hl]
      · cases selected gm (m.lookup u) with
        | none => simp [hu]
        | some gu => simp [hu, AList.lookup_insert_ne hu]

theorem snd_selectLoop (l : List Bytes) : (l.foldl (selectUser gm m) s).2 =
    s.2 ++ l.filter fun uid => lookedUp gm (m.lookup uid) := by
  induction l generalizing s with
  | nil => simp
  | cons u l ih =>
      rw [List.foldl_cons, ih, selectUser_eq, List.filter_cons, lookedUp]
      cases selected gm (m.lookup u) with
      | none => simp
      | some gu =>
          by_cases hgu : gu.pushUnknown = true
          · simp [hgu]
          · simp [hgu]

theorem lookup_selectUsers (groupMembers : UidSet) :
    (selectUsers gm m groupMembers).1.lookup uid =
      if uid ∈ groupMembers then selected gm (m.lookup uid) else none := by
  rw [selectUsers, lookup_selectLoop]
  simp

theorem mem_noPushTypeUids {groupMembers : UidSet} :
    uid ∈ (selectUsers gm m groupMembers).2 ↔
      uid ∈ groupMembers ∧ lookedUp gm (m.lookup uid) = true := by
  rw [selectUsers, snd_selectLoop]
  simp

theorem nodup_noPushTypeUids (groupMembers : UidSet) :
    (selectUsers gm m groupMembers).2.Nodup := by
  rw [selectUsers, snd_selectLoop]
  exact (nodup_inOrder groupMembers).filter _

theorem lookup_updateCache (offlineUids : GroupUserMsgs) (l : List Bytes) :
    (updateCache offlineUids m l).lookup uid =
      (if uid ∈ l then offlineUids.lookup uid else none).or (m.lookup uid) := by
  unfold updateCache
  induction l generalizing m with
  | nil => simp
  | cons u l ih =>
      rw [List.foldl_cons, ih]
      by_cases hu : uid = u
      · subst hu
        cases hlookup : offlineUids.lookup uid with
        | none => simp
        | some gu =>
            by_cases hl : uid ∈ l
            · simp [hl]
            · simp [hl]
      · cases offlineUids.lookup u with
        | none => simp [hu]
        | some gu => simp [hu, AList.lookup_insert_ne hu]

end Select

/-- The users a message is for -/
def GroupMessageIdInfo.recipients (gm : GroupMessageIdInfo) (memberUids : UidSet) : UidSet :=
  if gm.multicast then gm.gmm.members else memberUids

namespace PushServer

variable {srv : PushServer} {ans : PushAnswers} {m : GroupUserMsgs} {uid : Bytes} {gid : Gid}
  {gm : GroupMessageIdInfo} {groupMembers memberUids : UidSet} {r : OfflineUsers}
  {vecDbList : List UInt32}

theorem getOffline_cases
    (h : srv.getOfflineAccountAndPushType ans groupMembers gid gm m = some r) :
    ∃ missedUids, srv.dbBatchGetAccountsPushType ans (selectUsers gm m groupMembers).2
        (selectUsers gm m groupMembers).1 [] = some (r.offlineUids, missedUids) ∧
      r.groupUserMsgId = updateCache r.offlineUids m (selectUsers gm m groupMembers).2 ∧
      ∀ action ∈ r.actions, action = .hdel gm.redisId gid missedUids := by
  unfold getOfflineAccountAndPushType at h
  dsimp only at h
  split at h
  · cases h
  · split at h
    · cases h
    · next offlineUids missedUids hbatch =>
      cases h
      refine ⟨missedUids, hbatch, rfl, ?_⟩
      dsimp only
      split
      · simp
      · simp

/-- A user who is not looked up -/
theorem getOffline_known (hask : ans.Asked)
    (h : srv.getOfflineAccountAndPushType ans groupMembers gid gm m = some r)
    (hknown : uid ∉ (selectUsers gm m groupMembers).2) :
    r.offlineUids.lookup uid = (if uid ∈ groupMembers then selected gm (m.lookup uid) else none) ∧
      r.groupUserMsgId.lookup uid = m.lookup uid := by
  obtain ⟨missedUids, hbatch, hcache, -⟩ := getOffline_cases h
  constructor
  · rw [← lookup_selectUsers]
    refine (lookup_batchLoop hask ?_ hbatch uid).1 (by simpa using hknown)
    simpa using nodup_noPushTypeUids groupMembers
  · rw [hcache, lookup_updateCache, if_neg hknown, Option.none_or]

/-- A user who is -/
theorem getOffline_lookedUp (hask : ans.Asked)
    (h : srv.getOfflineAccountAndPushType ans groupMembers gid gm m = some r)
    {part : List Bytes} (hpart : part ∈ batches (selectUsers gm m groupMembers).2 [])
    (huid : uid ∈ part) : ∃ accounts, ans.accounts part = some accounts ∧
      r.offlineUids.lookup uid = srv.judged ans accounts uid (selected gm (m.lookup uid)) ∧
      r.groupUserMsgId.lookup uid = (r.offlineUids.lookup uid).or (m.lookup uid) := by
  obtain ⟨missedUids, hbatch, hcache, -⟩ := getOffline_cases h
  have hasked : uid ∈ (selectUsers gm m groupMembers).2 := by
    have hflat := List.mem_flatten.mpr ⟨part, hpart, huid⟩
    rwa [flatten_batches, List.nil_append] at hflat
  have hnodup : ([] ++ (selectUsers gm m groupMembers).2).Nodup := by
    simpa using nodup_noPushTypeUids groupMembers
  obtain ⟨accounts, haccounts, hlookup⟩ :=
    (lookup_batchLoop hask hnodup hbatch uid).2 part hpart huid
  rw [lookup_selectUsers, if_pos (mem_noPushTypeUids.mp hasked).1] at hlookup
  refine ⟨accounts, haccounts, hlookup, ?_⟩
  rw [hcache, lookup_updateCache, if_pos hasked]

/-! ## What is done for a user -/

theorem mem_pushRows {offlineUids : GroupUserMsgs} {e : Bytes × GroupUserMessageIdInfo} :
    e ∈ pushRows gm offlineUids ↔
      ∃ gu, offlineUids.lookup e.1 = some gu ∧ e.2 = { gu with lastMid := gm.lastMid } := by
  rw [pushRows, List.mem_map]
  constructor
  · rintro ⟨⟨uid, gu⟩, hmem, rfl⟩
    exact ⟨gu, Table.mem_rowsInOrder.mp hmem, rfl⟩
  · rintro ⟨gu, hlookup, heq⟩
    exact ⟨(e.1, gu), Table.mem_rowsInOrder.mpr hlookup, Prod.ext rfl heq.symm⟩

theorem mem_pushOther {rows : List (Bytes × GroupUserMessageIdInfo)} {pushType : Bytes}
    {destinations : List (Bytes × Json)} (h : (pushType, destinations) ∈ srv.pushOther gid rows)
    {value : Json} (hmem : (uid, value) ∈ destinations) :
    ∃ gu, (uid, gu) ∈ rows ∧ gu.pushType srv.numbers = pushType ∧ pushType ≠ [] ∧
      srv.config.checkPushType pushType = false := by
  unfold pushOther at h
  dsimp only at h
  obtain ⟨_, -, heq⟩ := List.mem_map.mp h
  cases heq
  obtain ⟨⟨_, _⟩, hother, heq⟩ := List.mem_map.mp hmem
  cases heq
  obtain ⟨hother, htype⟩ := List.mem_filter.mp hother
  obtain ⟨⟨_, gu⟩, hrow, hsome⟩ := List.mem_filterMap.mp hother
  dsimp only at hsome
  split at hsome
  · cases hsome
  · next hne =>
    cases hsome
    rw [GroupUserMessageIdInfo.getPushType_notification] at hne htype
    rw [Bool.or_eq_true, not_or, List.isEmpty_iff, Bool.not_eq_true] at hne
    have heq := of_decide_eq_true htype
    rw [← heq]
    exact ⟨gu, hrow, rfl, hne.2, hne.1⟩

theorem mem_hmsetOne {vecHashDb : List (Bytes × Json)} {action : PushAction}
    (h : action ∈ hmsetOne ans gid vecHashDb vecDbList) :
    ∃ redis, action = .hmset redis gid vecHashDb (ans.hmset redis) := by
  induction vecDbList with
  | nil => cases h
  | cons redis vecDbList ih =>
      rw [hmsetOne, List.mem_cons] at h
      rcases h with rfl | h
      · exact ⟨redis, rfl⟩
      · split at h
        · cases h
        · exact ih h

/-- What `doPushMessage` does: it sends, posts and writes. -/
theorem doPushMessage_cases {offlineUids : GroupUserMsgs} {action : PushAction}
    (h : action ∈ srv.doPushMessage ans vecDbList gid gm offlineUids) :
    (∃ e ∈ pushRows gm offlineUids, action =
      .sendNotification e.1 (e.2.pushType srv.numbers) (e.2.notification gid)) ∨
    (∃ addr, ∃ e ∈ srv.pushOther gid (pushRows gm offlineUids),
      action = .postGroupMessage addr gid gm.lastMid e.2) ∨
    ∃ redis, action = .hmset redis gid
      ((pushRows gm offlineUids).map fun e => (e.1, e.2.toJson)) (ans.hmset redis) := by
  rw [doPushMessage, List.mem_append, List.mem_append] at h
  rcases h with (h | h) | h
  · obtain ⟨e, he, hsend⟩ := List.mem_flatMap.mp h
    unfold pushSelf at hsend
    dsimp only at hsend
    split at hsend
    · exact Or.inl ⟨e, he, List.mem_singleton.mp hsend⟩
    · cases hsend
  · obtain ⟨e, he, hpost⟩ := List.mem_flatMap.mp h
    unfold postOther at hpost
    dsimp only at hpost
    split at hpost
    · exact Or.inr (Or.inl ⟨_, e, he, List.mem_singleton.mp hpost⟩)
    · cases hpost
  · exact Or.inr (Or.inr (mem_hmsetOne h))

/-- A notification is for a user in the map, whose record has a push type. -/
theorem pushes_doPushMessage {offlineUids : GroupUserMsgs} {action : PushAction}
    (h : action ∈ srv.doPushMessage ans vecDbList gid gm offlineUids)
    (hpush : action.pushes uid) :
    ∃ gu, offlineUids.lookup uid = some gu ∧ gu.pushType srv.numbers ≠ [] := by
  rcases doPushMessage_cases h with ⟨⟨u, gu'⟩, he, rfl⟩ | ⟨addr, ⟨t, destinations⟩, he, rfl⟩ |
    ⟨redis, rfl⟩
  · obtain ⟨rfl, hne⟩ := hpush
    obtain ⟨gu, hlookup, rfl⟩ := mem_pushRows.mp he
    exact ⟨gu, hlookup, hne⟩
  · obtain ⟨value, hmem⟩ := hpush
    obtain ⟨gu', hrow, htype, hne, -⟩ := mem_pushOther he hmem
    obtain ⟨gu, hlookup, rfl⟩ := mem_pushRows.mp hrow
    rw [← htype] at hne
    exact ⟨gu, hlookup, hne⟩
  · exact hpush.elim

/-- A record is written of a user in the map. -/
theorem writes_doPushMessage {offlineUids : GroupUserMsgs} {action : PushAction} {value : Json}
    (h : action ∈ srv.doPushMessage ans vecDbList gid gm offlineUids)
    (hwrite : action.writes uid value) : ∃ gu, offlineUids.lookup uid = some gu ∧
      value = GroupUserMessageIdInfo.toJson { gu with lastMid := gm.lastMid } := by
  rcases doPushMessage_cases h with ⟨_, _, rfl⟩ | ⟨_, _, _, rfl⟩ | ⟨redis, rfl⟩
  · exact hwrite.elim
  · exact hwrite.elim
  · obtain ⟨⟨u, gu'⟩, hrow, heq⟩ := List.mem_map.mp hwrite.2
    cases heq
    obtain ⟨gu, hlookup, rfl⟩ := mem_pushRows.mp hrow
    exact ⟨gu, hlookup, rfl⟩

/-- The processing of a message: nothing, or the users who are offline are found
and some or all of them pushed to. -/
theorem handleMessage_cases (srv : PushServer) (ans : PushAnswers) (vecDbList : List UInt32)
    (gid : Gid) (memberUids : UidSet) (gm : GroupMessageIdInfo) (m : GroupUserMsgs) :
    srv.handleMessage ans vecDbList gid memberUids gm m = (m, []) ∨
    ∃ r offlineUids acts,
      srv.getOfflineAccountAndPushType ans (gm.recipients memberUids) gid gm m = some r ∧
      srv.handleMessage ans vecDbList gid memberUids gm m = (r.groupUserMsgId, r.actions ++ acts) ∧
      (acts = [] ∨ acts = srv.doPushMessage ans vecDbList gid gm offlineUids) ∧
      ∀ uid gu, offlineUids.lookup uid = some gu → r.offlineUids.lookup uid = some gu := by
  unfold handleMessage
  split
  · next hdesignated =>
    have hrecipients : gm.recipients memberUids = gm.gmm.members :=
      if_pos (decide_eq_true hdesignated)
    unfold handleMemberUpdateMessage
    rw [hrecipients]
    cases hoff : srv.getOfflineAccountAndPushType ans gm.gmm.members gid gm m with
    | none => exact Or.inl rfl
    | some r =>
        -- the sender of an update is not pushed to
        refine Or.inr ⟨r, r.offlineUids.erase gm.gmm.fromUid, ?_⟩
        have hsub : ∀ uid gu, (r.offlineUids.erase gm.gmm.fromUid).lookup uid = some gu →
            r.offlineUids.lookup uid = some gu := by
          intro uid gu hlookup
          by_cases hu : uid = gm.gmm.fromUid
          · rw [hu, AList.lookup_erase] at hlookup
            cases hlookup
          · rwa [AList.lookup_erase_ne hu] at hlookup
        dsimp only
        split
        · exact ⟨[], rfl, by rw [List.append_nil], Or.inl rfl, hsub⟩
        · exact ⟨_, rfl, rfl, Or.inr rfl, hsub⟩
  · next hdesignated =>
    have hrecipients : gm.recipients memberUids = memberUids :=
      if_neg fun h => hdesignated (of_decide_eq_true h)
    split
    · unfold handleGroupMessagePush
      rw [hrecipients]
      cases hoff : srv.getOfflineAccountAndPushType ans memberUids gid gm m with
      | none => exact Or.inl rfl
      | some r => exact Or.inr ⟨r, r.offlineUids, _, rfl, rfl, Or.inr rfl, fun _ _ h => h⟩
    · exact Or.inl rfl

theorem handleMessage_fst
    (htype : gm.type = PushPeopleType.toDesignatedPerson.value ∨
      gm.type = PushPeopleType.toAll.value)
    (h : srv.getOfflineAccountAndPushType ans (gm.recipients memberUids) gid gm m = some r) :
    (srv.handleMessage ans vecDbList gid memberUids gm m).1 = r.groupUserMsgId := by
  unfold handleMessage
  rcases htype with hdesignated | hall
  · have hrecipients : gm.recipients memberUids = gm.gmm.members :=
      if_pos (decide_eq_true hdesignated)
    rw [hrecipients] at h
    rw [if_pos hdesignated, handleMemberUpdateMessage, h]
    dsimp only
    split
    · rfl
    · rfl
  · have hdesignated : gm.type ≠ PushPeopleType.toDesignatedPerson.value := by
      rw [hall]
      decide
    have hrecipients : gm.recipients memberUids = memberUids :=
      if_neg fun h => hdesignated (of_decide_eq_true h)
    rw [hrecipients] at h
    rw [if_neg hdesignated, if_pos hall, handleGroupMessagePush, h]

/-- What is done for a user is done with what is in the map of those offline. -/
theorem handleMessage_action {action : PushAction}
    (h : action ∈ (srv.handleMessage ans vecDbList gid memberUids gm m).2) :
    (∀ uid, ¬ action.pushes uid) ∧ (∀ uid value, ¬ action.writes uid value) ∨
    ∃ r, srv.getOfflineAccountAndPushType ans (gm.recipients memberUids) gid gm m = some r ∧
      (∀ uid, action.pushes uid →
        ∃ gu, r.offlineUids.lookup uid = some gu ∧ gu.pushType srv.numbers ≠ []) ∧
      ∀ uid value, action.writes uid value → ∃ gu, r.offlineUids.lookup uid = some gu ∧
        value = GroupUserMessageIdInfo.toJson { gu with lastMid := gm.lastMid } := by
  rcases handleMessage_cases srv ans vecDbList gid memberUids gm m with
    heq | ⟨r, offlineUids, acts, hoff, heq, hacts, hsub⟩
  · rw [heq] at h
    cases h
  · rw [heq, List.mem_append] at h
    rcases h with h | h
    · -- a removal of records neither pushes nor writes
      obtain ⟨missedUids, -, -, hhdel⟩ := getOffline_cases hoff
      left
      rw [hhdel action h]
      exact ⟨fun _ hp => hp, fun _ _ hw => hw⟩
    · rcases hacts with rfl | rfl
      · cases h
      · refine Or.inr ⟨r, hoff, fun uid hpush => ?_, fun uid value hwrite => ?_⟩
        · obtain ⟨gu, hlookup, hne⟩ := pushes_doPushMessage h hpush
          exact ⟨gu, hsub uid gu hlookup, hne⟩
        · obtain ⟨gu, hlookup, hvalue⟩ := writes_doPushMessage h hwrite
          exact ⟨gu, hsub uid gu hlookup, hvalue⟩

end PushServer

end BcmServer.Offline
