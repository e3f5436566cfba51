import BcmServer.Offline.PushedUsers

/-!
# BcmServer.Offline.PushOrder — what a task pushes and writes, in order

The actions of a task as two lists: the users with the message they are pushed, and
the records that are to be written. If the messages of the task are ascending, nobody
is pushed the same message twice, everybody who is pushed is written, and the records
of a user are written in order (`ordered_handleOfflineGroupMessage`).
-/

namespace BcmServer.Offline

open BcmServer.Util BcmServer.Redis
open BcmServer.Group (Gid)

namespace PushAction

/-- The users pushed to, with the message id in the notification -/
def pushed : PushAction → List (Bytes × Bytes)
  | sendNotification uid pushType notification =>
      if pushType.isEmpty then [] else [(uid, notification.mid)]
  | postGroupMessage _ _ mid destinations => destinations.map fun e => (e.1, decimal mid.toNat)
  | hdel _ _ _ => []
  | hmset _ _ _ _ => []

/-- The records that are sent to redis -/
def records : PushAction → List (Bytes × GroupUserMessageIdInfo)
  | sendNotification _ _ _ => []
  | postGroupMessage _ _ _ _ => []
  | hdel _ _ _ => []
  | hmset _ _ values _ => values.filterMap fun e =>
      (GroupUserMessageIdInfo.ofJson e.2).toOption.map fun gu => (e.1, gu)

end PushAction

/-- Higher is later; 0 without a record -/
def version (o : Option GroupUserMessageIdInfo) : ℕ :=
  match o with
  | none => 0
  | some gu => gu.lastMid.toNat + 1

def versions (m : GroupUserMsgs) (uid : Bytes) : ℕ := version (m.lookup uid)

/-- The messages of a task come in the order of their ids. -/
def AscendingMids (gms : List GroupMessageIdInfo) : Prop :=
  gms.Pairwise fun a b => a.lastMid.toNat < b.lastMid.toNat

instance (gms : List GroupMessageIdInfo) : Decidable (AscendingMids gms) :=
  inferInstanceAs (Decidable (List.Pairwise _ _))

namespace PushServer

variable {srv : PushServer} {ans : PushAnswers} {m : GroupUserMsgs} {uid : Bytes} {gid : Gid}
  {gm : GroupMessageIdInfo} {groupMembers memberUids : UidSet} {r : OfflineUsers}
  {redis : UInt32} {offlineUids : GroupUserMsgs}

/-! ## One call of doPushMessage -/

theorem nodup_keys_pushRows (gm : GroupMessageIdInfo) (offlineUids : GroupUserMsgs) :
    ((pushRows gm offlineUids).map Prod.fst).Nodup := by
  rw [pushRows, List.map_map]
  exact Table.nodup_keys_rowsInOrder offlineUids

theorem records_doPushMessage :
    (srv.doPushMessage ans [redis] gid gm offlineUids).flatMap PushAction.records =
      pushRows gm offlineUids := by
  have hself : ((pushRows gm offlineUids).flatMap (srv.pushSelf gid)).flatMap
      PushAction.records = [] := by
    rw [List.flatMap_eq_nil_iff]
    intro action haction
    obtain ⟨e, -, hsend⟩ := List.mem_flatMap.mp haction
    unfold pushSelf at hsend
    dsimp only at hsend
    split at hsend
    · rw [List.mem_singleton.mp hsend]
      rfl
    · cases hsend
  have hother : ((srv.pushOther gid (pushRows gm offlineUids)).flatMap
      (srv.postOther ans gid gm.lastMid)).flatMap PushAction.records = [] := by
    rw [List.flatMap_eq_nil_iff]
    intro action haction
    obtain ⟨e, -, hpost⟩ := List.mem_flatMap.mp haction
    unfold postOther at hpost
    dsimp only at hpost
    split at hpost
    · rw [List.mem_singleton.mp hpost]
      rfl
    · cases hpost
  rw [doPushMessage, List.flatMap_append, List.flatMap_append, hself, hother]
  simp [hmsetOne, PushAction.records, List.filterMap_map,
    GroupUserMessageIdInfo.ofJson_toJson, Except.toOption]

/-- Who is pushed to is written, with the message pushed. -/
theorem pushed_doPushMessage {e : Bytes × Bytes}
    (h : e ∈ (srv.doPushMessage ans [redis] gid gm offlineUids).flatMap PushAction.pushed) :
    e.2 = decimal gm.lastMid.toNat ∧ e.1 ∈ (pushRows gm offlineUids).map Prod.fst := by
  obtain ⟨action, haction, he⟩ := List.mem_flatMap.mp h
  rcases doPushMessage_cases haction with
    ⟨row, hrow, rfl⟩ | ⟨addr, ⟨t, destinations⟩, hother, rfl⟩ | ⟨redis', rfl⟩
  · rw [PushAction.pushed] at he
    split at he
    · cases he
    · rw [List.mem_singleton.mp he]
      obtain ⟨gu, -, hgu⟩ := mem_pushRows.mp hrow
      refine ⟨?_, List.mem_map.mpr ⟨row, hrow, rfl⟩⟩
      rw [hgu]
      rfl
  · obtain ⟨⟨uid, value⟩, hmem, rfl⟩ := List.mem_map.mp he
    obtain ⟨gu, hrow, -, -, -⟩ := mem_pushOther hother hmem
    exact ⟨rfl, List.mem_map.mpr ⟨(uid, gu), hrow, rfl⟩⟩
  · cases he

/-- What this server sends goes to users whose push type it has. -/
theorem pushed_pushSelf {e : Bytes × GroupUserMessageIdInfo} {x : Bytes × Bytes}
    (h : x ∈ (srv.pushSelf gid e).flatMap PushAction.pushed) :
    x.1 = e.1 ∧ srv.config.checkPushType (e.2.pushType srv.numbers) = true := by
  unfold pushSelf at h
  dsimp only at h
  split at h
  · next hcheck =>
    rw [List.flatMap_singleton, PushAction.pushed] at h
    split at h
    · cases h
    · rw [List.mem_singleton.mp h]
      exact ⟨rfl, (Bool.and_eq_true_iff.mp hcheck).1⟩
  · cases h

theorem pushed_postOther {e : Bytes × List (Bytes × Json)} {x : Bytes × Bytes}
    (h : x ∈ (srv.postOther ans gid gm.lastMid e).flatMap PushAction.pushed) :
    ∃ value, (x.1, value) ∈ e.2 := by
  unfold postOther at h
  dsimp only at h
  split at h
  · rw [List.flatMap_singleton] at h
    obtain ⟨⟨_, value⟩, hmem, rfl⟩ := List.mem_map.mp h
    exact ⟨value, hmem⟩
  · cases h

theorem nodup_pushSelf {rows : List (Bytes × GroupUserMessageIdInfo)}
    (hrows : (rows.map Prod.fst).Nodup) :
    ((rows.flatMap (srv.pushSelf gid)).flatMap PushAction.pushed).Nodup := by
  rw [List.flatMap_assoc, List.nodup_flatMap]
  constructor
  · intro e _
    unfold pushSelf
    dsimp only
    split
    · rw [List.flatMap_singleton, PushAction.pushed]
      split
      · exact List.nodup_nil
      · exact List.nodup_singleton _
    · exact List.nodup_nil
  · -- two rows are of two users
    refine (List.pairwise_map.mp hrows).imp fun hne x hx hx' => hne ?_
    rw [← (pushed_pushSelf hx).1, ← (pushed_pushSelf hx').1]

/-- The users another server is asked to push to -/
theorem nodup_destinations {rows : List (Bytes × GroupUserMessageIdInfo)}
    (hrows : (rows.map Prod.fst).Nodup) {e : Bytes × List (Bytes × Json)}
    (h : e ∈ srv.pushOther gid rows) : (e.2.map Prod.fst).Nodup := by
  unfold pushOther at h
  dsimp only at h
  obtain ⟨pushType, -, rfl⟩ := List.mem_map.mp h
  rw [List.map_map]
  refine List.Nodup.sublist ?_ hrows
  refine (List.Sublist.map _ List.filter_sublist).trans (sublist_map_filterMap ?_ rows)
  intro row other hother
  split at hother
  · cases hother
  · cases hother
    rfl

theorem nodup_pushTypes (rows : List (Bytes × GroupUserMessageIdInfo)) :
    ((srv.pushOther gid rows).map Prod.fst).Nodup := by
  unfold pushOther
  rw [List.map_map]
  exact (List.map_id _).symm ▸ nodup_inOrder _

theorem nodup_postOther {rows : List (Bytes × GroupUserMessageIdInfo)}
    (hrows : (rows.map Prod.fst).Nodup) :
    (((srv.pushOther gid rows).flatMap (srv.postOther ans gid gm.lastMid)).flatMap
      PushAction.pushed).Nodup := by
  rw [List.flatMap_assoc, List.nodup_flatMap]
  constructor
  · intro e he
    unfold postOther
    dsimp only
    split
    · rw [List.flatMap_singleton, PushAction.pushed]
      refine List.Nodup.of_map Prod.fst ?_
      rw [List.map_map]
      exact nodup_destinations hrows he
    · exact List.nodup_nil
  · refine (List.pairwise_map.mp (nodup_pushTypes rows)).imp_of_mem fun {a b} ha hb hne x hx hx' =>
      hne ?_
    -- a user has one row, so one push type
    obtain ⟨value, hmem⟩ := pushed_postOther hx
    obtain ⟨value', hmem'⟩ := pushed_postOther hx'
    obtain ⟨gu, hrow, htype, -, -⟩ := mem_pushOther ha hmem
    obtain ⟨gu', hrow', htype', -, -⟩ := mem_pushOther hb hmem'
    have heq : (x.1, gu) = (x.1, gu') := List.inj_on_of_nodup_map hrows hrow hrow' rfl
    cases heq
    rw [← htype, ← htype']

theorem pushed_hmsetOne (vecHashDb : List (Bytes × Json)) (vecDbList : List UInt32) :
    (hmsetOne ans gid vecHashDb vecDbList).flatMap PushAction.pushed = [] := by
  rw [List.flatMap_eq_nil_iff]
  intro action haction
  obtain ⟨redis, rfl⟩ := mem_hmsetOne haction
  rfl

/-- Nobody is pushed to twice. -/
theorem nodup_doPushMessage : ((srv.doPushMessage ans [redis] gid gm offlineUids).flatMap
    PushAction.pushed).Nodup := by
  have hrows := nodup_keys_pushRows gm offlineUids
  rw [doPushMessage, List.flatMap_append, List.flatMap_append, pushed_hmsetOne, List.append_nil]
  refine List.nodup_append.mpr ⟨nodup_pushSelf hrows, nodup_postOther hrows, ?_⟩
  rintro x hx _ hx' rfl
  -- a push type is this server's own or not
  rw [List.flatMap_assoc, List.mem_flatMap] at hx hx'
  obtain ⟨⟨uid, gu⟩, hrow, hself⟩ := hx
  obtain ⟨hx, hcheck⟩ := pushed_pushSelf hself
  obtain ⟨other, hother, hpost⟩ := hx'
  obtain ⟨value, hmem⟩ := pushed_postOther hpost
  obtain ⟨gu', hrow', htype, -, hother⟩ := mem_pushOther hother hmem
  have heq : (uid, gu) = (x.1, gu') := List.inj_on_of_nodup_map hrows hrow hrow' hx.symm
  cases heq
  rw [htype, hother] at hcheck
  cases hcheck

/-! ## One message -/

/-- Looking up does not change what has been pushed. -/
theorem lastMid_judged {accounts : List Account} {gu gu' : GroupUserMessageIdInfo}
    (h : srv.judged ans accounts uid (some gu) = some gu') : gu'.lastMid = gu.lastMid := by
  unfold judged at h
  split at h
  · cases h
    rfl
  · unfold byAccount at h
    split at h
    · cases h
      rfl
    · split at h
      · cases h
        rfl
      · cases h
        rfl

/-- A user offline for the message is one it is for, who has not been pushed it. -/
theorem offline_selected (hask : ans.Asked)
    (h : srv.getOfflineAccountAndPushType ans groupMembers gid gm m = some r)
    {gu : GroupUserMessageIdInfo} (hlookup : r.offlineUids.lookup uid = some gu) :
    uid ∈ groupMembers ∧ (selected gm (m.lookup uid)).isSome = true := by
  by_cases hknown : uid ∈ (selectUsers gm m groupMembers).2
  · obtain ⟨hmem, hlooked⟩ := mem_noPushTypeUids.mp hknown
    obtain ⟨gu, hgu, -⟩ := (Option.any_eq_true _ _).mp hlooked
    exact ⟨hmem, Option.isSome_iff_exists.mpr ⟨gu, hgu⟩⟩
  · rw [(getOffline_known hask h hknown).1] at hlookup
    split at hlookup
    · next hmem => exact ⟨hmem, Option.isSome_iff_exists.mpr ⟨gu, hlookup⟩⟩
    · cases hlookup

theorem isSome_selected {gu : GroupUserMessageIdInfo} : (selected gm (some gu)).isSome = true ↔
    gu.lastMid.toNat < gm.lastMid.toNat ∧ gu.flagged = false := by
  rw [selected]
  split
  · next h =>
    simp only [Bool.or_eq_true, decide_eq_true_eq, UInt64.le_iff_toNat_le] at h
    simp only [Option.isSome_none, Bool.false_eq_true, false_iff, not_and, Bool.not_eq_false]
    intro hlt
    exact h.resolve_left (Nat.not_le.mpr hlt)
  · next h =>
    simp only [Bool.or_eq_true, decide_eq_true_eq, not_or, UInt64.le_iff_toNat_le, Nat.not_le,
      Bool.not_eq_true] at h
    simpa using h

theorem version_le_of_selected {o : Option GroupUserMessageIdInfo}
    (h : (selected gm o).isSome = true) : version o ≤ gm.lastMid.toNat := by
  cases o with
  | none => exact Nat.zero_le _
  | some gu => exact (isSome_selected.mp h).1

/-- A record in the map of a task keeps what has been pushed, and its flag. -/
theorem kept_handleMessage (srv : PushServer) (gid : Gid) (memberUids : UidSet)
    (gm : GroupMessageIdInfo) (hask : ans.Asked) (vecDbList : List UInt32)
    {gu : GroupUserMessageIdInfo} (hm : m.lookup uid = some gu) :
    ∃ gu', (srv.handleMessage ans vecDbList gid memberUids gm m).1.lookup uid = some gu' ∧
      gu'.lastMid = gu.lastMid ∧ (gu.flagged = true → gu'.flagged = true) := by
  rcases handleMessage_cases srv ans vecDbList gid memberUids gm m with
    heq | ⟨r, _, _, hoff, heq, -, -⟩
  · rw [heq]
    exact ⟨gu, hm, rfl, id⟩
  · rw [heq]
    by_cases hknown : uid ∈ (selectUsers gm m (gm.recipients memberUids)).2
    · have hflat : uid ∈ (batches (selectUsers gm m (gm.recipients memberUids)).2 []).flatten := by
        rw [flatten_batches]
        exact hknown
      obtain ⟨part, hpart, hin⟩ := List.mem_flatten.mp hflat
      obtain ⟨accounts, -, hoffline, hcache⟩ := getOffline_lookedUp hask hoff hpart hin
      obtain ⟨old, hold, -⟩ := (Option.any_eq_true _ _).mp (mem_noPushTypeUids.mp hknown).2
      -- a user with the flag is not looked up
      have hflag : gu.flagged = false := by
        rw [hm] at hold
        exact (isSome_selected.mp (Option.isSome_iff_exists.mpr ⟨old, hold⟩)).2
      have hsame : old = gu := by
        rw [hm, selected] at hold
        split at hold
        · cases hold
        · exact (Option.some.inj hold).symm
      rw [hold, hsame] at hoffline
      dsimp only
      rw [hcache, hm]
      cases hlookup : r.offlineUids.lookup uid with
      | none => exact ⟨gu, rfl, rfl, id⟩
      | some gu' =>
          rw [hlookup] at hoffline
          exact ⟨gu', rfl, lastMid_judged hoffline.symm, by simp [hflag]⟩
    · exact ⟨gu, (getOffline_known hask hoff hknown).2.trans hm, rfl, id⟩

/-- Who is offline for a message after another would have been before it. -/
theorem selected_handleMessage (hask : ans.Asked) (vecDbList : List UInt32)
    {gm' : GroupMessageIdInfo} (h : (selected gm'
      ((srv.handleMessage ans vecDbList gid memberUids gm m).1.lookup uid)).isSome = true) :
    (selected gm' (m.lookup uid)).isSome = true := by
  cases hm : m.lookup uid with
  | none => rfl
  | some gu =>
      obtain ⟨gu', hgu', hmid, hflag⟩ := kept_handleMessage srv gid memberUids gm hask vecDbList hm
      rw [hgu', isSome_selected, hmid] at h
      refine isSome_selected.mpr ⟨h.1, ?_⟩
      cases hf : gu.flagged with
      | false => rfl
      | true =>
          rw [hflag hf] at h
          exact h.2

/-- What the processing of messages pushes and writes, from a map on -/
structure Ordered (gms : List GroupMessageIdInfo) (memberUids : UidSet) (m : GroupUserMsgs)
    (actions : List PushAction) : Prop where
  /-- Records are written for users a message is for, who have not been pushed it. -/
  new : ∀ e ∈ actions.flatMap PushAction.records, ∃ gm ∈ gms, e.2.lastMid = gm.lastMid ∧
    e.1 ∈ gm.recipients memberUids ∧ (selected gm (m.lookup e.1)).isSome = true
  ascending : (actions.flatMap PushAction.records).Pairwise fun a b =>
    a.2.lastMid.toNat ≤ b.2.lastMid.toNat
  covered : ∀ e ∈ actions.flatMap PushAction.pushed,
    ∃ x ∈ actions.flatMap PushAction.records, e = (x.1, decimal x.2.lastMid.toNat)
  once : (actions.flatMap PushAction.pushed).Nodup

theorem Ordered.nil (gms : List GroupMessageIdInfo) (memberUids : UidSet) (m : GroupUserMsgs)
    {actions : List PushAction} (hrecords : actions.flatMap PushAction.records = [])
    (hpushed : actions.flatMap PushAction.pushed = []) : Ordered gms memberUids m actions where
  new := by simp [hrecords]
  ascending := by simp [hrecords]
  covered := by simp [hpushed]
  once := by simp [hpushed]

/-- Actions that neither push nor write may stand anywhere. -/
theorem Ordered.append_quiet {gms : List GroupMessageIdInfo} {actions quiet : List PushAction}
    (h : Ordered gms memberUids m actions)
    (hrecords : quiet.flatMap PushAction.records = [])
    (hpushed : quiet.flatMap PushAction.pushed = []) :
    Ordered gms memberUids m (actions ++ quiet) where
  new := by simpa [hrecords] using h.new
  ascending := by simpa [hrecords] using h.ascending
  covered := by simpa [hrecords, hpushed] using h.covered
  once := by simpa [hpushed] using h.once

theorem ordered_handleMessage (hask : ans.Asked) :
    Ordered [gm] memberUids m (srv.handleMessage ans [redis] gid memberUids gm m).2 := by
  rcases handleMessage_cases srv ans [redis] gid memberUids gm m with
    heq | ⟨r, offlineUids, acts, hoff, heq, hacts, hsub⟩
  · rw [heq]
    exact .nil _ _ _ rfl rfl
  · obtain ⟨missedUids, -, -, hhdel⟩ := getOffline_cases hoff
    have hrecords : r.actions.flatMap PushAction.records = [] := by
      rw [List.flatMap_eq_nil_iff]
      intro action haction
      rw [hhdel action haction]
      rfl
    have hpushed : r.actions.flatMap PushAction.pushed = [] := by
      rw [List.flatMap_eq_nil_iff]
      intro action haction
      rw [hhdel action haction]
      rfl
    rw [heq]
    rcases hacts with rfl | rfl
    · rw [List.append_nil]
      exact .nil _ _ _ hrecords hpushed
    · -- all that is written is written with the id of this message
      have hrow : ∀ e ∈ pushRows gm offlineUids, e.2.lastMid = gm.lastMid := by
        intro e he
        obtain ⟨gu, -, hgu⟩ := mem_pushRows.mp he
        rw [hgu]
      constructor
      · intro e he
        rw [List.flatMap_append, hrecords, List.nil_append, records_doPushMessage] at he
        obtain ⟨gu, hlookup, -⟩ := mem_pushRows.mp he
        obtain ⟨hmem, hnew⟩ := offline_selected hask hoff (hsub e.1 gu hlookup)
        exact ⟨gm, List.mem_singleton_self gm, hrow e he, hmem, hnew⟩
      · rw [List.flatMap_append, hrecords, List.nil_append, records_doPushMessage]
        refine List.pairwise_of_forall_mem_list fun a ha b hb => ?_
        rw [hrow a ha, hrow b hb]
      · intro e he
        rw [List.flatMap_append, hpushed, List.nil_append] at he
        obtain ⟨hmid, hmem⟩ := pushed_doPushMessage he
        obtain ⟨x, hx, hxe⟩ := List.mem_map.mp hmem
        refine ⟨x, ?_, ?_⟩
        · rw [List.flatMap_append, hrecords, List.nil_append, records_doPushMessage]
          exact hx
        · rw [hrow x hx, hxe, ← hmid]
      · rw [List.flatMap_append, hpushed, List.nil_append]
        exact nodup_doPushMessage

/-! ## A task -/

theorem mem_cleanMembers {roles : Option (Finset Bytes)} {action : PushAction}
    (h : action ∈ cleanMembers [redis] gid memberUids roles m) :
    ∃ uids, action = .hdel redis.toInt32 gid uids := by
  unfold cleanMembers at h
  dsimp only at h
  split at h
  · cases h
  · split at h
    · cases h
    · exact ⟨_, List.mem_singleton.mp h⟩

/-- A message before later ones -/
theorem Ordered.cons {gms : List GroupMessageIdInfo} {m' : GroupUserMsgs}
    {actions actions' : List PushAction} (h : Ordered [gm] memberUids m actions)
    (h' : Ordered gms memberUids m' actions')
    (hfirst : ∀ gm' ∈ gms, gm.lastMid.toNat < gm'.lastMid.toNat)
    (hsel : ∀ gm' uid, (selected gm' (m'.lookup uid)).isSome = true →
      (selected gm' (m.lookup uid)).isSome = true) :
    Ordered (gm :: gms) memberUids m (actions ++ actions') := by
  have hthis : ∀ e ∈ actions.flatMap PushAction.records, e.2.lastMid = gm.lastMid := by
    intro e he
    obtain ⟨gm', hgm', hmid, -, -⟩ := h.new e he
    rw [hmid, List.mem_singleton.mp hgm']
  have hlater : ∀ e ∈ actions'.flatMap PushAction.records,
      gm.lastMid.toNat < e.2.lastMid.toNat := by
    intro e he
    obtain ⟨gm', hgm', hmid, -, -⟩ := h'.new e he
    rw [hmid]
    exact hfirst gm' hgm'
  constructor
  · intro e he
    rw [List.flatMap_append, List.mem_append] at he
    rcases he with he | he
    · obtain ⟨gm', hgm', hrest⟩ := h.new e he
      rw [List.mem_singleton.mp hgm'] at hrest
      exact ⟨gm, List.mem_cons_self, hrest⟩
    · obtain ⟨gm', hgm', hmid, hmem, hnew⟩ := h'.new e he
      exact ⟨gm', List.mem_cons_of_mem gm hgm', hmid, hmem, hsel gm' e.1 hnew⟩
  · rw [List.flatMap_append, List.pairwise_append]
    refine ⟨h.ascending, h'.ascending, fun a ha b hb => ?_⟩
    rw [hthis a ha]
    exact Nat.le_of_lt (hlater b hb)
  · intro e he
    rw [List.flatMap_append, List.mem_append] at he
    simp only [List.flatMap_append, List.mem_append]
    rcases he with he | he
    · obtain ⟨x, hx, heq⟩ := h.covered e he
      exact ⟨x, Or.inl hx, heq⟩
    · obtain ⟨x, hx, heq⟩ := h'.covered e he
      exact ⟨x, Or.inr hx, heq⟩
  · rw [List.flatMap_append]
    refine List.nodup_append.mpr ⟨h.once, h'.once, ?_⟩
    rintro e he _ he' rfl
    -- the two notifications have different message ids
    obtain ⟨x, hx, heq⟩ := h.covered e he
    obtain ⟨y, hy, heq'⟩ := h'.covered e he'
    rw [heq, Prod.mk.injEq] at heq'
    have hmid : x.2.lastMid.toNat = y.2.lastMid.toNat := decimal_injective heq'.2
    have hlt := hlater y hy
    rw [← hmid, hthis x hx] at hlt
    exact Nat.lt_irrefl _ hlt

theorem ordered_handleMessages {answers : ℕ → PushAnswers} (hask : ∀ i, (answers i).Asked)
    (i : ℕ) {gms : List GroupMessageIdInfo}
    (hgms : AscendingMids gms) (m : GroupUserMsgs) :
    Ordered gms memberUids m
      (srv.handleMessages answers [redis] gid memberUids i gms m).2 := by
  induction gms generalizing i m with
  | nil => exact .nil _ _ _ rfl rfl
  | cons gm gms ih =>
      obtain ⟨hfirst, hgms⟩ := List.pairwise_cons.mp hgms
      exact (ordered_handleMessage (hask i)).cons (ih (i + 1) hgms _) hfirst
        fun _ _ => selected_handleMessage (hask i) [redis]

/-- The task of a group -/
theorem ordered_handleOfflineGroupMessage {answers : ℕ → PushAnswers}
    (hask : ∀ i, (answers i).Asked) {gmt : GroupMessageInfoTask}
    (hgms : AscendingMids gmt.gms) (members : Option UidSet)
    (roles : Option (Finset Bytes)) (m : GroupUserMsgs) :
    Ordered gmt.gms (members.getD ∅) m
      (srv.handleOfflineGroupMessage answers [redis] gid members m roles gmt) := by
  unfold handleOfflineGroupMessage
  cases members with
  | none => exact .nil _ _ _ rfl rfl
  | some memberUids =>
      dsimp only
      split
      · exact .nil _ _ _ rfl rfl
      · refine (ordered_handleMessages hask 0 hgms m).append_quiet ?_ ?_
        · rw [List.flatMap_eq_nil_iff]
          intro action haction
          obtain ⟨_, rfl⟩ := mem_cleanMembers haction
          rfl
        · rw [List.flatMap_eq_nil_iff]
          intro action haction
          obtain ⟨_, rfl⟩ := mem_cleanMembers haction
          rfl

end PushServer

end BcmServer.Offline
