import BcmServer.Group.Outcome
import BcmServer.Group.Service

/-!
# BcmServer.Group.MemberCount — the number of members the keys are chosen by

Kick, leave, add-me, invite and review end with a request for new keys, whose
mode depends on the number of members after the change. Each handler reads the
number before the change and works the new one out from the list of the request.

* `keysCount_iff`: when that is the number of rows after the change. A kick and a
  review count every entry of the list, however often a uid is listed and, for
  the kick, whether it is a member or not.
* `keysCount_repeated`: a kick that lists a user twice.
-/

namespace BcmServer.Group

open BcmServer.Util BcmServer.Lts GroupManagerController

/-- The requests that change the members of a group and ask for new keys. -/
def GroupRequest.asksForKeys : GroupRequest → Bool
  | kickV3 _ | leaveV3 _ | addMeV3 _ | inviteV3 _ | reviewV3 _ => true
  | _ => false

/-- How often an element is listed again. -/
def repetitions (uids : List Bytes) : ℕ := uids.length - uids.toFinset.card

/-- The condition on a request and the store before it. The number of members
after it must fit `uint32_t` as well. -/
def CountsRight (ctx : Context) (s : Store) : GroupRequest → Prop
  | .kickV3 body => body.members.Nodup ∧ ∀ m ∈ body.members, s.isMember body.gid m = true
  | .addMeV3 req =>
      s.isMember req.gid ctx.uid = false ∧ s.memberCnt req.gid + 1 < UInt32.size
  | .inviteV3 req => s.memberCnt req.gid + (req.admitted s).length < UInt32.size
  | .reviewV3 req =>
      repetitions (req.admitted s) % UInt32.size = 0 ∧
        s.memberCnt req.gid + (req.admitted s).toFinset.card < UInt32.size
  | _ => True

/-! ## Deleting rows -/

theorem kick_not_self {body : KickGroupMemberBody} {uid : Bytes} (h : body.check uid = none) :
    uid ∉ body.members := by
  unfold KickGroupMemberBody.check at h
  split at h
  · cases h
  split at h
  · cases h
  intro hmem
  have hself := List.findSome?_eq_none_iff.mp h uid hmem
  split at hself
  · cases hself
  · simp at hself

/-- A list has no repetition and lies in a set exactly if the set has as many of
its elements as the list is long. -/
theorem card_inter_toFinset {K : Type} [DecidableEq K] (A : Finset K) (ks : List K) :
    (A ∩ ks.toFinset).card = ks.length ↔ ks.Nodup ∧ ∀ k ∈ ks, k ∈ A := by
  have hinter : (A ∩ ks.toFinset).card ≤ ks.toFinset.card :=
    Finset.card_le_card Finset.inter_subset_right
  have hlist : ks.toFinset.card ≤ ks.length := List.toFinset_card_le ks
  constructor
  · intro heq
    have hset : ks.toFinset.card = ks.length := by omega
    have hsub : A ∩ ks.toFinset = ks.toFinset :=
      Finset.eq_of_subset_of_card_le Finset.inter_subset_right (by omega)
    refine ⟨Multiset.toFinset_card_eq_card_iff_nodup.mp hset, ?_⟩
    intro k hk
    have hmem : k ∈ A ∩ ks.toFinset := by
      rw [hsub]
      exact List.mem_toFinset.mpr hk
    exact (Finset.mem_inter.mp hmem).1
  · rintro ⟨hnodup, hsub⟩
    have hset : A ∩ ks.toFinset = ks.toFinset := by
      apply Finset.inter_eq_right.mpr
      intro k hk
      exact hsub k (List.mem_toFinset.mp hk)
    rw [hset, List.toFinset_card_of_nodup hnodup]

theorem memberCnt_setUsers (s : Store) (gid : Gid) (rows : Table Bytes GroupUser) :
    (s.setUsers gid rows).memberCnt gid = rows.count GroupUser.counts := by
  unfold Store.memberCnt
  rw [users_setUsers]

theorem mem_counted_iff (s : Store) (gid : Gid) (uid : Bytes) :
    uid ∈ (s.users gid).counted GroupUser.counts ↔ s.isMember gid uid = true :=
  Table.mem_counted GroupUser.counts

theorem isMember_of_role {s : Store} {gid : Gid} {uid : Bytes} {role : Role}
    (h : s.role gid uid = some role) (hcounts : role.counts = true) :
    s.isMember gid uid = true := by
  rw [s.isMember_eq, h]
  exact hcounts

theorem toNat_lt_size (n : UInt32) : n.toNat < UInt32.size := n.toNat_lt

/-- The number a kick passes on. -/
theorem after_toNat (body : KickGroupMemberBody) (memberCnt : UInt32) :
    (body.after memberCnt).toNat = memberCnt.toNat - body.members.length := by
  have hsize := toNat_lt_size memberCnt
  unfold KickGroupMemberBody.after
  split
  · rename_i hle
    have hof : (UInt32.ofNat body.members.length).toNat = body.members.length :=
      UInt32.toNat_ofNat_of_lt' (by omega)
    rw [UInt32.toNat_sub_of_le _ _ (UInt32.le_iff_toNat_le.mpr (by omega)), hof]
  · rw [UInt32.toNat_zero]
    omega

theorem kick_count {ctx : Context} {body : KickGroupMemberBody} {s t : Store} {r : Reply}
    (h : Kicked ctx body s r t) {n : UInt32} (hn : r.keysCount = some n) :
    n.toNat = t.memberCnt body.gid ↔
      body.members.Nodup ∧ ∀ m ∈ body.members, s.isMember body.gid m = true := by
  obtain ⟨memberCnt, hcnt, hkeys⟩ := h.count
  have hafter : n = body.after memberCnt := Option.some.inj (hn.symm.trans hkeys)
  set A := (s.users body.gid).counted GroupUser.counts with hA
  -- the rows that go are those of the listed members
  have hgone : A ∩ (body.members.filter fun m => (s.row body.gid m).isSome).toFinset =
      A ∩ body.members.toFinset := by
    ext m
    simp only [Finset.mem_inter, List.mem_toFinset, List.mem_filter]
    constructor
    · rintro ⟨hm, hmem, -⟩
      exact ⟨hm, hmem⟩
    · rintro ⟨hm, hmem⟩
      refine ⟨hm, hmem, ?_⟩
      rw [hA, mem_counted_iff, Store.isMember, Option.any_eq_true] at hm
      obtain ⟨row, hrow, -⟩ := hm
      rw [hrow]
      rfl
  have hcount : t.memberCnt body.gid + (A ∩ body.members.toFinset).card =
      s.memberCnt body.gid := by
    rw [h.store, memberCnt_setUsers, ← hgone]
    exact Table.count_eraseAll GroupUser.counts _ _
  -- the owner stays
  have howner : 0 < t.memberCnt body.gid := by
    have hmem : ctx.uid ∈ A \ body.members.toFinset := by
      rw [Finset.mem_sdiff, hA, mem_counted_iff, List.mem_toFinset]
      exact ⟨isMember_of_role h.owner rfl, kick_not_self h.checked⟩
    have hcard := Finset.card_sdiff_add_card_inter A body.members.toFinset
    have hpos := Finset.card_pos.mpr ⟨ctx.uid, hmem⟩
    have hall : s.memberCnt body.gid = A.card := Table.count_eq_card GroupUser.counts _
    omega
  have hiff := card_inter_toFinset A body.members
  simp only [hA, mem_counted_iff] at hiff
  rw [← hiff, hafter, after_toNat, hcnt]
  have hle : (A ∩ body.members.toFinset).card ≤ body.members.length :=
    (Finset.card_le_card Finset.inter_subset_right).trans (List.toFinset_card_le _)
  rw [hA] at hcount hle
  omega

/-- The number a leave passes on. -/
theorem leave_toNat {memberCnt : UInt32} {n : ℕ} (h : memberCnt.toNat = n) :
    (if 1 ≤ memberCnt then memberCnt - 1 else 0).toNat = n - 1 := by
  split
  · rename_i hle
    rw [UInt32.toNat_sub_of_le _ _ hle, h]
    rfl
  · rename_i hle
    rw [UInt32.le_iff_toNat_le, h] at hle
    have hone : (1 : UInt32).toNat = 1 := rfl
    rw [UInt32.toNat_zero]
    omega

/-- Deleting the row of a member. -/
theorem count_erase_member {s : Store} {gid : Gid} {uid : Bytes}
    (h : s.isMember gid uid = true) :
    Table.count GroupUser.counts ((s.users gid).erase uid) + 1 = s.memberCnt gid := by
  have hcount := Table.count_erase GroupUser.counts (s.users gid) uid
  have hrow : ((s.users gid).lookup uid).any GroupUser.counts = true := h
  rw [if_pos hrow] at hcount
  exact hcount

theorem leave_count {ctx : Context} {body : LeaveGroupBody} {plan : Plan ℕ} {s t : Store}
    {r : Reply} (h : LeaveOutcome ctx body plan s r t) {n : UInt32} (hn : r.keysCount = some n) :
    n.toNat = t.memberCnt body.gid := by
  cases h with
  | refused h =>
      rw [h.count] at hn
      cases hn
  | left h =>
      obtain ⟨memberCnt, hcnt, hkeys⟩ := h.count
      rw [Option.some.inj (hn.symm.trans hkeys), leave_toNat hcnt, h.store, memberCnt_setUsers]
      have hmember : s.isMember body.gid ctx.uid = true := by
        rcases h.role with hrole | ⟨hrole, -⟩
        · exact isMember_of_role hrole rfl
        · exact isMember_of_role hrole rfl
      have hcount := count_erase_member hmember
      omega
  | handedOver next h _ count _ store =>
      obtain ⟨memberCnt, hcnt, hkeys⟩ := count
      rw [Option.some.inj (hn.symm.trans hkeys), leave_toNat hcnt, store, memberCnt_setUsers]
      -- the next owner's row counts before and after
      have hnext : ((s.users body.gid).lookup body.nextOwner).any GroupUser.counts = true := by
        have hrow : (s.users body.gid).lookup body.nextOwner = some next := h.row
        rw [hrow, Option.any_some, GroupUser.counts]
        rcases h.role with hrole | hrole <;> rw [hrole] <;> rfl
      have hsame : Table.count GroupUser.counts
          ((s.users body.gid).insert body.nextOwner next.promoted) = s.memberCnt body.gid :=
        Table.count_insert_of_mem GroupUser.counts _ rfl hnext
      have hself : (((s.users body.gid).insert body.nextOwner next.promoted).lookup ctx.uid).any
          GroupUser.counts = true := by
        rw [AList.lookup_insert_ne h.ne.symm]
        exact isMember_of_role h.owner rfl
      have hcount := Table.count_erase GroupUser.counts
        ((s.users body.gid).insert body.nextOwner next.promoted) ctx.uid
      rw [if_pos hself] at hcount
      omega
  | twoOwners next h _ count _ _ _ =>
      rw [count] at hn
      cases hn

/-! ## Adding rows -/

/-- Rows of new members are added to users that are none. -/
theorem count_admit {s : Store} {gid : Gid} {rows : List (Bytes × GroupUser)}
    (hroles : ∀ r ∈ rows, r.2.role = .member)
    (hnew : ∀ uid ∈ rows.map Prod.fst, s.isMember gid uid = false) :
    ((s.users gid).insertAll rows).count GroupUser.counts =
      s.memberCnt gid + (rows.map Prod.fst).toFinset.card := by
  apply Table.count_insertAll
  · intro r hr
    rw [GroupUser.counts, hroles r hr]
    rfl
  · intro r hr
    exact hnew r.1 (List.mem_map.mpr ⟨r, hr, rfl⟩)

/-- A number of `uint32_t` plus a length, once both fit -/
theorem toNat_add_ofNat {memberCnt : UInt32} {n k : ℕ} (h : memberCnt.toNat = n) :
    (memberCnt + UInt32.ofNat k).toNat = (n + k) % UInt32.size := by
  rw [UInt32.toNat_add, UInt32.toNat_ofNat', h]
  exact Nat.add_mod_mod n k _

/-- What is passed on is the number of different users added exactly if the
repetitions do not show in `uint32_t` and the number fits. -/
theorem add_count_iff {memberCnt : UInt32} {n : ℕ} {uids : List Bytes}
    (h : memberCnt.toNat = n) :
    (memberCnt + UInt32.ofNat uids.length).toNat = n + uids.toFinset.card ↔
      repetitions uids % UInt32.size = 0 ∧ n + uids.toFinset.card < UInt32.size := by
  rw [toNat_add_ofNat h]
  have hle : uids.toFinset.card ≤ uids.length := List.toFinset_card_le uids
  unfold repetitions
  simp only [UInt32.size]
  omega

theorem repetitions_of_nodup {uids : List Bytes} (h : uids.Nodup) : repetitions uids = 0 := by
  unfold repetitions
  rw [List.toFinset_card_of_nodup h, Nat.sub_self]

theorem addMe_count {ctx : Context} {req : AddMeRequestV3} {plan : Plan ℕ} {s t : Store}
    {r : Reply} (h : AddedMe ctx req plan s r t) {n : UInt32} (hn : r.keysCount = some n) :
    n.toNat = t.memberCnt req.gid ↔
      s.isMember req.gid ctx.uid = false ∧ s.memberCnt req.gid + 1 < UInt32.size := by
  obtain ⟨memberCnt, hcnt, hkeys⟩ := h.count
  obtain ⟨user, hrole, hstore⟩ := h.store
  have hcounts : user.counts = true := by
    rw [GroupUser.counts, hrole]
    rfl
  have hsize := toNat_lt_size memberCnt
  rw [Option.some.inj (hn.symm.trans hkeys), hstore, memberCnt_setUsers]
  have hnat : (memberCnt + 1).toNat = (s.memberCnt req.gid + 1) % UInt32.size :=
    toNat_add_ofNat hcnt
  rw [hnat]
  rw [hcnt] at hsize
  simp only [UInt32.size] at hsize ⊢
  cases hmember : s.isMember req.gid ctx.uid with
  | true =>
      have hsame := Table.count_insert_of_mem GroupUser.counts (s.users req.gid) hcounts hmember
      have hold : Table.count GroupUser.counts ((s.users req.gid).insert ctx.uid user) =
          s.memberCnt req.gid := hsame
      rw [hold]
      simp only [Bool.true_eq_false, false_and, iff_false]
      omega
  | false =>
      have hbatch : ((s.users req.gid).insertAll [(ctx.uid, user)]).count GroupUser.counts =
          s.memberCnt req.gid + 1 :=
        count_admit (by simpa using hrole) (by simpa using hmember)
      have hnew : Table.count GroupUser.counts ((s.users req.gid).insert ctx.uid user) =
          s.memberCnt req.gid + 1 := hbatch
      rw [hnew]
      simp only [true_and]
      omega

theorem invite_count {ctx : Context} {req : InviteGroupMemberRequestV3} {s t : Store}
    {r : Reply} (h : InviteOutcome ctx req s r t) {n : UInt32} (hn : r.keysCount = some n) :
    n.toNat = t.memberCnt req.gid ↔
      s.memberCnt req.gid + (req.admitted s).length < UInt32.size := by
  cases h with
  | quiet hcount _ _ =>
      rw [hcount] at hn
      cases hn
  | invited rows h _ hcount hstore =>
      obtain ⟨memberCnt, hcnt, hkeys⟩ := hcount
      have hlen : rows.length = (req.admitted s).length := by
        rw [← h.uids, List.length_map]
      have hnodup : (req.admitted s).Nodup := h.nodup.sublist List.filter_sublist
      have hnew : ∀ uid ∈ rows.map Prod.fst, s.isMember req.gid uid = false := by
        intro uid huid
        rw [h.uids] at huid
        simpa using (List.mem_filter.mp huid).2
      rw [Option.some.inj (hn.symm.trans hkeys), hstore, memberCnt_setUsers,
        count_admit h.roles hnew, h.uids, hlen, add_count_iff hcnt, repetitions_of_nodup hnodup,
        List.toFinset_card_of_nodup hnodup]
      simp

theorem review_count {ctx : Context} {req : ReviewJoinResultRequestV3} {s t : Store}
    {r : Reply} (h : ReviewOutcome ctx req s r t) {n : UInt32} (hn : r.keysCount = some n) :
    n.toNat = t.memberCnt req.gid ↔
      repetitions (req.admitted s) % UInt32.size = 0 ∧
        s.memberCnt req.gid + (req.admitted s).toFinset.card < UInt32.size := by
  cases h with
  | quiet hcount _ _ =>
      rw [hcount] at hn
      cases hn
  | reviewed _ rows huids hroles _ hcount _ hstore =>
      obtain ⟨memberCnt, hcnt, hkeys⟩ := hcount
      have hlen : rows.length = (req.admitted s).length := by
        rw [← huids, List.length_map]
      have hnew : ∀ uid ∈ rows.map Prod.fst, s.isMember req.gid uid = false := by
        intro uid huid
        rw [huids] at huid
        have hnone := (List.mem_filter.mp huid).2
        rw [Option.isNone_iff_eq_none] at hnone
        rw [Store.isMember, hnone]
        rfl
      have hmembers : t.memberCnt req.gid =
          ((s.users req.gid).insertAll rows).count GroupUser.counts := by
        rw [hstore]
        exact memberCnt_setUsers s req.gid _
      rw [Option.some.inj (hn.symm.trans hkeys), hmembers, count_admit hroles hnew, huids, hlen]
      exact add_count_iff hcnt

/-! ## All requests -/

/-- The number a successful kick, leave, add-me, invite or review passes on is the
number of members after it exactly if the request meets the condition. -/
theorem keysCount_iff (env : Env) (ctx : Context) (req : GroupRequest)
    (hkind : req.asksForKeys = true) (plan : Plan ℕ) (s : Store) (n : UInt32)
    (hkeys : ((req.handle env ctx).run plan s).1.keysCount = some n) :
    n.toNat = ((req.handle env ctx).run plan s).2.memberCnt (req.gid ctx) ↔
      CountsRight ctx s req := by
  cases req with
  | kickV3 body =>
      rcases Dao.run_of_wp (kick_outcome env ctx body plan s) with h | h
      · exact absurd (h.count.symm.trans hkeys) (Option.some_ne_none n).symm
      · exact kick_count h hkeys
  | leaveV3 body =>
      have hcount := leave_count (Dao.run_of_wp (leave_outcome env ctx body plan s)) hkeys
      exact ⟨fun _ => trivial, fun _ => hcount⟩
  | addMeV3 req =>
      rcases Dao.run_of_wp (addMe_outcome env ctx req plan s) with h | h
      · exact absurd (h.count.symm.trans hkeys) (Option.some_ne_none n).symm
      · exact addMe_count h hkeys
  | inviteV3 req => exact invite_count (Dao.run_of_wp (invite_outcome env ctx req plan s)) hkeys
  | reviewV3 req => exact review_count (Dao.run_of_wp (review_outcome env ctx req plan s)) hkeys
  | createV3 | joinV3 | updateV3 | join | review | uploadPassword | inviteV2 | updateV2 =>
      exact Bool.noConfusion hkind

/-- Member `[2]` is kicked. -/
def kickOne : GroupRequest := .kickV3 ⟨7, [[2]]⟩

theorem keysCount_iff_kick :
    ((kickOne.handle plainEnv (plainContext [1])).run .clean (threeMembers 0)).1.keysCount =
        some 2 ∧
      (2 : UInt32).toNat =
        ((kickOne.handle plainEnv (plainContext [1])).run .clean (threeMembers 0)).2.memberCnt
          7 := by
  have hkeys : ((kickOne.handle plainEnv (plainContext [1])).run .clean
      (threeMembers 0)).1.keysCount = some 2 := by decide
  refine ⟨hkeys, ?_⟩
  apply (keysCount_iff plainEnv (plainContext [1]) kickOne rfl .clean (threeMembers 0) 2
    hkeys).mpr
  exact ⟨by decide, by decide⟩

/-- Member `[2]` is kicked, and listed twice. -/
def kickTwice : GroupRequest := .kickV3 ⟨7, [[2], [2]]⟩

/-- A user who is listed twice is counted twice. -/
theorem keysCount_repeated :
    ¬ ∀ (env : Env) (ctx : Context) (req : GroupRequest), req.asksForKeys = true →
      ∀ (plan : Plan ℕ) (s : Store) (n : UInt32),
      ((req.handle env ctx).run plan s).1.keysCount = some n →
      n.toNat = ((req.handle env ctx).run plan s).2.memberCnt (req.gid ctx) := by
  intro hclaim
  have hkeys : ((kickTwice.handle plainEnv (plainContext [1])).run .clean
      (threeMembers 0)).1.keysCount = some 1 := by decide
  have hcount : ((kickTwice.handle plainEnv (plainContext [1])).run .clean
      (threeMembers 0)).2.memberCnt 7 = 2 := by decide
  have heq := hclaim plainEnv (plainContext [1]) kickTwice rfl .clean (threeMembers 0) 1 hkeys
  exact absurd (heq.trans hcount) (by decide)

end BcmServer.Group
