import BcmServer.Group.Reviews

/-!
# BcmServer.Group.KeyDistribution — the keys that accepted users get

`distributeKeys` gives a row with the keys to each accepted user who has none, and fills in
the keys that the row of an accepted user lacks. A key that a row has stays. The two ways
differ in what they make of a group that is not encrypted: a row that is added has the group
info secret and no encrypted key, and a row that lacks both gets the encrypted key and no
secret (`Distributed.row_not_encrypted`).

* `distributeKeys_outcome`: the rows and the pending list, after success and after failure.
-/

namespace BcmServer.Group

open BcmServer.Util BcmServer.Lts GroupManagerController Dao

/-- The row of a user with the keys it lacks filled in from a result -/
def GroupUser.filledFrom (user : GroupUser) (encrypted : Bool) (item : ReviewJoinResult)
    (updateTime : ℤ) : GroupUser :=
  { user with
    encryptedKey := if user.encryptedKey = [] then item.groupSecret else user.encryptedKey
    groupInfoSecret :=
      if encrypted = true ∧ user.groupInfoSecret = [] then item.groupInfoSecret
      else user.groupInfoSecret
    updateTime }

section Keys

variable {encrypted : Bool} {now : ℤ} {user : GroupUser} {item : ReviewJoinResult}
  {data : KeysUpdate}

theorem filledFrom_encryptedKey {time : ℤ} :
    (user.filledFrom encrypted item time).encryptedKey =
      if user.encryptedKey = [] then item.groupSecret else user.encryptedKey := rfl

theorem filledFrom_groupInfoSecret {time : ℤ} :
    (user.filledFrom encrypted item time).groupInfoSecret =
      if encrypted = true ∧ user.groupInfoSecret = [] then item.groupInfoSecret
      else user.groupInfoSecret := rfl

/-- What `updateIfEmpty` makes of a row -/
theorem eq_of_updateIfEmpty {filled : GroupUser} (h : user.updateIfEmpty data = some filled) :
    filled = { user with
      encryptedKey := data.encryptedKey.getD user.encryptedKey
      groupInfoSecret := data.groupInfoSecret.getD user.groupInfoSecret
      updateTime := data.updateTime } := by
  unfold GroupUser.updateIfEmpty at h
  split at h
  · cases h
  split at h
  · cases h
  exact (Option.some.inj h).symm

/-- The two fields of an update, each there if the row lacks the key -/
theorem eq_of_missingKeys (h : missingKeys encrypted now user item = some data) :
    data =
      { encryptedKey := if user.encryptedKey = [] then some item.groupSecret else none
        groupInfoSecret := if encrypted = true ∧ user.groupInfoSecret = [] then
          some item.groupInfoSecret else none
        updateTime := now } := by
  unfold missingKeys at h
  split at h
  · simpa using (Option.some.inj h).symm
  · cases h

/-- A row that lacks nothing -/
theorem filledFrom_of_missingKeys_none (h : missingKeys encrypted now user item = none) :
    user.filledFrom encrypted item user.updateTime = user := by
  unfold missingKeys at h
  split at h
  · cases h
  next hnone =>
  simp only [Bool.or_eq_true, List.isEmpty_iff, Bool.and_eq_true, not_or] at hnone
  rw [GroupUser.filledFrom, if_neg hnone.1, if_neg hnone.2]

/-- The keys that a row lacks are filled in. -/
theorem updateIfEmpty_missingKeys (h : missingKeys encrypted now user item = some data) :
    user.updateIfEmpty data = some (user.filledFrom encrypted item now) := by
  obtain rfl := eq_of_missingKeys h
  by_cases hkey : user.encryptedKey = [] <;>
    by_cases hsecret : encrypted = true ∧ user.groupInfoSecret = [] <;>
    simp [GroupUser.updateIfEmpty, GroupUser.filledFrom, hkey, hsecret]

/-- A second result for a user replaces what the first has filled in, or nothing. -/
theorem updateIfEmpty_filledFrom {item' : ReviewJoinResult} {time : ℤ} {filled : GroupUser}
    (h : missingKeys encrypted now user item = some data)
    (hfilled : (user.filledFrom encrypted item' time).updateIfEmpty data = some filled) :
    filled = user.filledFrom encrypted item now := by
  obtain rfl := eq_of_updateIfEmpty hfilled
  obtain rfl := eq_of_missingKeys h
  by_cases hkey : user.encryptedKey = [] <;>
    by_cases hsecret : encrypted = true ∧ user.groupInfoSecret = [] <;>
    simp [GroupUser.filledFrom, hkey, hsecret]

end Keys

/-! ## Members that lack keys -/

section Update

variable {gid : Gid} {encrypted : Bool} {items : List ReviewJoinResult} {s t u : Store}

/-- The row of the user is the one before, filled in from one of the results. -/
def Filled (gid : Gid) (encrypted : Bool) (items : List ReviewJoinResult) (s t : Store)
    (uid : Bytes) : Prop :=
  ∃ user, s.row gid uid = some user ∧ ∃ item ∈ items, item.uid = uid ∧
    ∃ time, t.row gid uid = some (user.filledFrom encrypted item time)

/-- Rows may have been filled in, and nothing else has changed. -/
structure Filling (gid : Gid) (encrypted : Bool) (items : List ReviewJoinResult)
    (s t : Store) : Prop where
  rows : ∀ uid, t.row gid uid = s.row gid uid ∨ Filled gid encrypted items s t uid
  pending : t.pending = s.pending

/-- The row of one user changes. -/
theorem row_setUsers (s : Store) (gid : Gid) (uid uid' : Bytes) (user : GroupUser) :
    (s.setUsers gid ((s.users gid).insert uid user)).row gid uid' =
      if uid' = uid then some user else s.row gid uid' := by
  rw [Store.row, Store.setUsers]
  simp only [Function.update_self]
  split
  · next h => rw [h, AList.lookup_insert]
  · next h => exact AList.lookup_insert_ne h

/-- One row is filled in. The others stay. -/
theorem Filled.insert {uid : Bytes} {user : GroupUser}
    (h : Filled gid encrypted items s (t.setUsers gid ((t.users gid).insert uid user)) uid)
    {uid' : Bytes} (h' : Filled gid encrypted items s t uid') :
    Filled gid encrypted items s (t.setUsers gid ((t.users gid).insert uid user)) uid' := by
  by_cases huid : uid' = uid
  · exact huid ▸ h
  · rw [Filled, row_setUsers, if_neg huid]
    exact h'

theorem Filling.insert {uid : Bytes} {user : GroupUser} (ht : Filling gid encrypted items s t)
    (h : Filled gid encrypted items s (t.setUsers gid ((t.users gid).insert uid user)) uid) :
    Filling gid encrypted items s (t.setUsers gid ((t.users gid).insert uid user)) := by
  refine ⟨fun uid' => ?_, ht.pending⟩
  by_cases huid : uid' = uid
  · exact Or.inr (huid ▸ h)
  · rcases ht.rows uid' with hrow | hfilled
    · left
      rw [row_setUsers, if_neg huid, hrow]
    · exact Or.inr (h.insert hfilled)

theorem apply_updateIfEmpty {uid : Bytes} {user : GroupUser} {data : KeysUpdate}
    (h : t.row gid uid = some user) :
    Write.apply t (.updateIfEmpty gid uid data) =
      ((user.updateIfEmpty data).elim (.error .alreadyExisted) fun filled =>
        .ok (t.setUsers gid ((t.users gid).insert uid filled))) := by
  simp only [Write.apply, h, found, bind, Except.bind]
  cases user.updateIfEmpty data <;> rfl

/-- What the row of a user can be when a result for the user is come to -/
theorem Filling.row {uid : Bytes} {user : GroupUser} (h : Filling gid encrypted items s t)
    (huser : s.row gid uid = some user) :
    t.row gid uid = some user ∨ Filled gid encrypted items s t uid :=
  (h.rows uid).imp_left fun hrow => hrow.trans huser

/-- What `updateIfEmpty` does for a member who lacks keys: it fills them in, or they have been
filled in from a result before. -/
theorem Filling.update {now : ℤ} {item : ReviewJoinResult} {user : GroupUser} {data : KeysUpdate}
    (ht : Filling gid encrypted items s t) (hitem : item ∈ items)
    (huser : s.row gid item.uid = some user)
    (hdata : missingKeys encrypted now user item = some data) :
    (∃ filled, Write.apply t (.updateIfEmpty gid item.uid data) =
        .ok (t.setUsers gid ((t.users gid).insert item.uid filled)) ∧
      Filled gid encrypted items s (t.setUsers gid ((t.users gid).insert item.uid filled))
        item.uid) ∨
    Write.apply t (.updateIfEmpty gid item.uid data) = .error .alreadyExisted ∧
      Filled gid encrypted items s t item.uid := by
  -- the row with the keys of this result
  have hinsert : Filled gid encrypted items s (t.setUsers gid
      ((t.users gid).insert item.uid (user.filledFrom encrypted item now))) item.uid := by
    refine ⟨user, huser, item, hitem, rfl, now, ?_⟩
    rw [row_setUsers, if_pos rfl]
  rcases ht.row huser with hrow | hfilled
  · left
    refine ⟨_, ?_, hinsert⟩
    rw [apply_updateIfEmpty hrow, updateIfEmpty_missingKeys hdata]
    rfl
  · have ⟨user', huser', item', _, _, time, hrow⟩ := hfilled
    obtain rfl : user = user' := Option.some.inj (huser.symm.trans huser')
    rw [apply_updateIfEmpty hrow]
    -- it does so again if what has been filled in is empty
    cases hagain : (user.filledFrom encrypted item' time).updateIfEmpty data with
    | none => exact Or.inr ⟨rfl, hfilled⟩
    | some filled =>
        obtain rfl := updateIfEmpty_filledFrom hdata hagain
        exact Or.inl ⟨_, rfl, hinsert⟩

/-- What `updateKeys` leaves, from `t` on. `b` tells whether it has gone through all its users. -/
structure KeysUpdated (gid : Gid) (encrypted : Bool) (items : List ReviewJoinResult) (s t : Store)
    (pairs : List (ReviewJoinResult × GroupUser)) (b : Bool) (u : Store) : Prop where
  filling : Filling gid encrypted items s u
  kept : ∀ uid, Filled gid encrypted items s t uid → Filled gid encrypted items s u uid
  all : b = true → ∀ x ∈ pairs, Filled gid encrypted items s u x.1.uid

theorem KeysUpdated.failed (pairs : List (ReviewJoinResult × GroupUser))
    (ht : Filling gid encrypted items s t) :
    KeysUpdated gid encrypted items s t pairs false t :=
  ⟨ht, fun _ => id, fun hfalse => absurd hfalse Bool.false_ne_true⟩

/-- The row of one user is filled in before the others. -/
theorem KeysUpdated.cons {t' : Store} {x : ReviewJoinResult × GroupUser}
    {pairs : List (ReviewJoinResult × GroupUser)} {b : Bool}
    (hkeep : ∀ uid, Filled gid encrypted items s t uid → Filled gid encrypted items s t' uid)
    (hx : Filled gid encrypted items s t' x.1.uid)
    (h : KeysUpdated gid encrypted items s t' pairs b u) :
    KeysUpdated gid encrypted items s t (x :: pairs) b u := by
  refine ⟨h.filling, fun uid huid => h.kept uid (hkeep uid huid), fun hb y hy => ?_⟩
  rcases List.mem_cons.mp hy with rfl | hy
  · exact h.kept _ hx
  · exact h.all hb y hy

/-- `updateKeys` fills in the rows of the users it is given, or fails. -/
theorem updateKeys_fills {now : ℤ} {plan : Plan ℕ} (pairs : List (ReviewJoinResult × GroupUser))
    (hpairs : ∀ x ∈ pairs, x.1 ∈ items ∧ s.row gid x.1.uid = some x.2)
    (ht : Filling gid encrypted items s t) :
    (updateKeys gid encrypted now pairs).wp
      (fun b _ u => KeysUpdated gid encrypted items s t pairs b u) plan t := by
  induction pairs generalizing t plan with
  | nil => exact ⟨ht, fun _ => id, fun _ x hx => absurd hx List.not_mem_nil⟩
  | cons x pairs ih =>
      obtain ⟨item, user⟩ := x
      obtain ⟨hitem, huser⟩ := hpairs _ List.mem_cons_self
      -- the rest, from a state in which the row of this user is filled in
      have hrest : ∀ t' plan, Filling gid encrypted items s t' →
          (∀ uid, Filled gid encrypted items s t uid → Filled gid encrypted items s t' uid) →
          Filled gid encrypted items s t' item.uid →
          (updateKeys gid encrypted now pairs).wp
            (fun b _ u => KeysUpdated gid encrypted items s t ((item, user) :: pairs) b u)
            plan t' := fun t' plan ht' hkeep hfilled =>
        Program.wp_mono (ih (fun x hx => hpairs x (List.mem_cons_of_mem _ hx)) ht')
          fun _ _ _ => KeysUpdated.cons hkeep hfilled
      unfold updateKeys
      split
      · next hnone =>
        apply hrest t plan ht (fun _ => id)
        rcases ht.row huser with hrow | hfilled
        · refine ⟨user, huser, item, hitem, rfl, user.updateTime, ?_⟩
          rw [filledFrom_of_missingKeys_none hnone, hrow]
        · exact hfilled
      next data hdata =>
      apply wp_write_fault
      · exact fun _ _ => .failed _ ht
      · intro e he
        rcases ht.update hitem huser hdata with ⟨filled, happly, -⟩ | ⟨happly, hfilled⟩
        · cases he.symm.trans happly
        · -- the keys have been filled in from a result before: this is no failure
          cases he.symm.trans happly
          exact hrest t _ ht (fun _ => id) hfilled
      · intro t' ht'
        rcases ht.update hitem huser hdata with ⟨filled, happly, hfilled⟩ | ⟨happly, -⟩
        · cases ht'.symm.trans happly
          exact hrest _ _ (ht.insert hfilled) (fun _ => hfilled.insert) hfilled
        · cases ht'.symm.trans happly

end Update

/-! ## Distribution -/

section Distribution

variable {ctx : Context} {req : ReviewJoinResultList} {group : GroupRecord} {s t u : Store}

/-- The results that accept a user. -/
def ReviewJoinResultList.accepted (req : ReviewJoinResultList) : List ReviewJoinResult :=
  req.list.filter ReviewJoinResult.accepted

/-- The keys of a result, as a row that is added has them -/
def GroupUser.Carries (user : GroupUser) (encrypted : Bool) (item : ReviewJoinResult) : Prop :=
  user.groupInfoSecret = item.groupInfoSecret ∧
    user.encryptedKey = if encrypted then item.groupSecret else []

/-- What a distribution that succeeds leaves -/
structure Distributed (req : ReviewJoinResultList) (encrypted : Bool) (s t : Store) : Prop where
  added : ∀ uid, req.Accepts uid → s.row req.gid uid = none →
    ∃ item ∈ req.accepted, item.uid = uid ∧
      ∃ user, t.row req.gid uid = some user ∧ user.Carries encrypted item
  filled : ∀ uid, req.Accepts uid → (s.row req.gid uid).isSome →
    Filled req.gid encrypted req.accepted s t uid
  pending : t.pending req.gid =
    withoutPending (s.pending req.gid) (req.list.map ReviewJoinResult.uid)

/-- A distribution gives up before the pending list is touched, or it succeeds. -/
inductive DistributionOutcome (req : ReviewJoinResultList) (encrypted : Bool) (s : Store)
    (r : Reply) (t : Store) : Prop where
  | failed (status : r.status ≠ .ok) (pending : t.pending = s.pending)
  | done (status : r.status = .ok) (distributed : Distributed req encrypted s t)

theorem mem_accepted {item : ReviewJoinResult} :
    item ∈ req.accepted ↔ item ∈ req.list ∧ item.accepted = true :=
  List.mem_filter

/-- An accepted user is taken as existing if there is a row. -/
theorem isSome_existedRow {existed : List (Bytes × GroupUser)} {item : ReviewJoinResult}
    (hexisted : ∀ uid ∈ req.accepted.map ReviewJoinResult.uid,
      (existed.any fun u => u.1 = uid) = (s.row req.gid uid).isSome)
    (hitem : item ∈ req.accepted) :
    (existedRow existed item).isSome = (s.row req.gid item.uid).isSome := by
  rw [← hexisted item.uid (List.mem_map.mpr ⟨item, hitem, rfl⟩), existedRow, Option.isSome_map,
    List.isSome_find?]

theorem row_of_existedRow {existed : List (Bytes × GroupUser)}
    {x : ReviewJoinResult × GroupUser} (hrows : ∀ u ∈ existed, s.row req.gid u.1 = some u.2)
    (hx : x ∈ req.accepted.filterMap (existedRow existed)) :
    x.1 ∈ req.accepted ∧ s.row req.gid x.1.uid = some x.2 := by
  obtain ⟨item, hitem, hx⟩ := List.mem_filterMap.mp hx
  obtain ⟨u, hu, rfl⟩ := Option.map_eq_some_iff.mp hx
  have huid : u.1 = item.uid := by simpa using List.find?_some hu
  exact ⟨hitem, huid ▸ hrows u (List.mem_of_find?_eq_some hu)⟩

/-- The keys of a row that is added come from a result. -/
theorem carries_of_mem_distributedRows {items : List ReviewJoinResult} {uid : Bytes}
    {user : GroupUser} (h : (uid, user) ∈ distributedRows ctx group items) :
    ∃ item ∈ items, item.uid = uid ∧ user.Carries (group.encryptStatus = .on) item := by
  obtain ⟨item, hitem, heq⟩ := List.mem_map.mp h
  obtain ⟨rfl, rfl⟩ := Prod.mk.inj heq
  exact ⟨item, hitem, rfl, rfl, by simp⟩

theorem insertDistributed_rows {gid : Gid} {rows : List (Bytes × GroupUser)}
    {inviters : List Bytes} {plan : Plan ℕ} :
    (insertDistributed gid rows inviters).wp
      (fun b _ t => t.pending = s.pending ∧
        (b = true → t.users gid = (s.users gid).insertAll rows)) plan s := by
  unfold insertDistributed
  split
  · next hempty =>
    rw [List.isEmpty_iff.mp hempty]
    exact ⟨rfl, fun _ => rfl⟩
  · apply wp_write
    · exact fun _ _ => ⟨rfl, fun hfalse => absurd hfalse (by decide)⟩
    · intro t _ ht
      cases ht
      apply wp_quiet (quiet_pubForEach _ _)
      intro _ _
      exact ⟨rfl, fun _ => Function.update_self _ _ _⟩

/-- The rows after the two batches -/
theorem Distributed.of_batches {encrypted : Bool} {new : List ReviewJoinResult}
    {rows : List (Bytes × GroupUser)}
    (hnew : ∀ item, item ∈ new ↔ item ∈ req.accepted ∧ s.row req.gid item.uid = none)
    (huids : rows.map Prod.fst = new.map ReviewJoinResult.uid)
    (hrows : ∀ uid user, (uid, user) ∈ rows →
      ∃ item ∈ new, item.uid = uid ∧ user.Carries encrypted item)
    (hfilled : ∀ uid, req.Accepts uid → (s.row req.gid uid).isSome →
      Filled req.gid encrypted req.accepted s u uid)
    (hu : t.users req.gid = (u.users req.gid).insertAll rows)
    (hpending : t.pending req.gid =
      withoutPending (s.pending req.gid) (req.list.map ReviewJoinResult.uid)) :
    Distributed req encrypted s t := by
  -- rows are added for the accepted users without one
  have hmem : ∀ uid, uid ∈ rows.map Prod.fst ↔
      ∃ item ∈ req.accepted, item.uid = uid ∧ s.row req.gid uid = none := by
    intro uid
    rw [huids, List.mem_map]
    constructor
    · rintro ⟨item, hitem, rfl⟩
      exact ⟨item, ((hnew item).mp hitem).1, rfl, ((hnew item).mp hitem).2⟩
    · rintro ⟨item, hitem, rfl, hnone⟩
      exact ⟨item, (hnew item).mpr ⟨hitem, hnone⟩, rfl⟩
  refine ⟨?_, ?_, hpending⟩
  · rintro uid ⟨item, hlist, haccepted, rfl⟩ hnone
    have huid : item.uid ∈ rows.map Prod.fst :=
      (hmem _).mpr ⟨item, mem_accepted.mpr ⟨hlist, haccepted⟩, rfl, hnone⟩
    obtain ⟨user, huser, hlook⟩ := Table.lookup_insertAll_of_mem (u.users req.gid) rows huid
    obtain ⟨item', hitem', huid', hcarries⟩ := hrows _ _ huser
    refine ⟨item', ((hnew item').mp hitem').1, huid', user, ?_, hcarries⟩
    rw [Store.row, hu, hlook]
  · intro uid haccepts hsome
    have huid : uid ∉ rows.map Prod.fst := by
      rw [hmem]
      rintro ⟨_, _, _, hnone⟩
      rw [hnone] at hsome
      cases hsome
    have hrow : t.row req.gid uid = u.row req.gid uid := by
      rw [Store.row, hu, Table.lookup_insertAll_of_notMem _ _ huid]
      rfl
    rw [Filled, hrow]
    exact hfilled uid haccepts hsome

/-- The rows at the end of a distribution that succeeds: those that existed have been filled in, and
then the others were added. -/
theorem distributed_of_updated {existed : List (Bytes × GroupUser)}
    (hexisted : ∀ uid ∈ req.accepted.map ReviewJoinResult.uid,
      (existed.any fun u => u.1 = uid) = (s.row req.gid uid).isSome)
    (hfilled : ∀ x ∈ req.accepted.filterMap (existedRow existed),
      Filled req.gid (group.encryptStatus = .on) req.accepted s u x.1.uid)
    (hu : t.users req.gid = (u.users req.gid).insertAll (distributedRows ctx group
      (req.accepted.filter fun item => (existedRow existed item).isNone)))
    (hpending : t.pending req.gid =
      withoutPending (s.pending req.gid) (req.list.map ReviewJoinResult.uid)) :
    Distributed req (group.encryptStatus = .on) s t := by
  refine .of_batches ?_ ?_ (fun uid user => carries_of_mem_distributedRows) ?_ hu hpending
  · intro item
    rw [List.mem_filter, Option.isNone_iff_eq_none, ← Option.not_isSome_iff_eq_none,
      ← Option.not_isSome_iff_eq_none]
    exact and_congr_right fun hitem => by rw [isSome_existedRow hexisted hitem]
  · rw [distributedRows, List.map_map]
    rfl
  · rintro uid ⟨item, hlist, haccepted, rfl⟩ hrow
    have hitem := mem_accepted.mpr ⟨hlist, haccepted⟩
    rw [← isSome_existedRow hexisted hitem, Option.isSome_iff_exists] at hrow
    obtain ⟨x, hx⟩ := hrow
    obtain ⟨_, -, rfl⟩ := Option.map_eq_some_iff.mp hx
    exact hfilled _ (List.mem_filterMap.mpr ⟨item, hitem, hx⟩)

/-- Everything a distribution can do -/
theorem distributeKeys_outcome (ctx : Context) (req : ReviewJoinResultList) (group : GroupRecord)
    (plan : Plan ℕ) (s : Store) :
    (distributeKeys ctx req group).wp
      (fun r _ t => DistributionOutcome req (group.encryptStatus = .on) s r t) plan s := by
  have hfail : ∀ t plan, t.pending = s.pending →
      Dao.wp (pure (Reply.of .internalServerError))
        (fun r _ t => DistributionOutcome req (group.encryptStatus = .on) s r t) plan t :=
    fun t plan ht => .failed (by decide) ht
  unfold distributeKeys
  apply wp_existedUsers fun plan => hfail s plan rfl
  intro existed plan hrows hexisted
  have hpairs : ∀ x ∈ req.accepted.filterMap (existedRow existed),
      x.1 ∈ req.accepted ∧ s.row req.gid x.1.uid = some x.2 := fun x => row_of_existedRow hrows
  -- first the rows that exist, then those that are added; the pending list comes last
  apply Program.wp_bind
  refine Program.wp_mono (updateKeys_fills _ hpairs ⟨fun _ => Or.inl rfl, rfl⟩) ?_
  rintro updated plan u hu
  cases updated with
  | false => exact hfail u plan hu.filling.pending
  | true =>
      apply Program.wp_bind
      refine Program.wp_mono insertDistributed_rows ?_
      rintro inserted plan v ⟨hv, hinserted⟩
      have hpending : v.pending = s.pending := hv.trans hu.filling.pending
      cases inserted with
      | false => exact hfail v plan hpending
      | true =>
          show Dao.wp (if req.list.isEmpty = true then _ else _) _ _ _
          split
          · next hempty =>
            refine .done rfl (distributed_of_updated hexisted (hu.all rfl) (hinserted rfl) ?_)
            rw [hpending, List.isEmpty_iff.mp hempty, List.map_nil, withoutPending_nil]
          · apply wp_write
            · exact fun _ _ => hfail v _ hpending
            · intro t _ ht
              obtain ⟨husers, ht⟩ := apply_pendingDel ht
              rw [hpending] at ht
              exact .done rfl (distributed_of_updated hexisted (hu.all rfl)
                (husers ▸ hinserted rfl) ht)

/-! ## The results -/

/-- In a group that is not encrypted, a member who lacks both keys gets the encrypted key and not
the group info secret. -/
theorem Distributed.row_not_encrypted (h : Distributed req false s t) {uid : Bytes}
    {user : GroupUser} (huid : req.Accepts uid) (hrow : s.row req.gid uid = some user)
    (hkey : user.encryptedKey = []) :
    ∃ item ∈ req.accepted, item.uid = uid ∧ ∃ user', t.row req.gid uid = some user' ∧
      user'.encryptedKey = item.groupSecret ∧ user'.groupInfoSecret = user.groupInfoSecret := by
  obtain ⟨user', huser', item, hitem, hitemuid, time, hfilled⟩ :=
    h.filled uid huid (by rw [hrow]; rfl)
  obtain rfl : user = user' := Option.some.inj (hrow.symm.trans huser')
  refine ⟨item, hitem, hitemuid, _, hfilled, ?_, ?_⟩
  · rw [filledFrom_encryptedKey, if_pos hkey]
  · rw [filledFrom_groupInfoSecret, if_neg fun hencrypted => Bool.false_ne_true hencrypted.1]

/-- A row that exists keeps the keys it has, and if the group is encrypted it gets the keys it
lacks from a result. -/
structure KeysKept (req : ReviewJoinResultList) (encrypted : Bool) (uid : Bytes)
    (user user' : GroupUser) : Prop where
  encryptedKey : user.encryptedKey ≠ [] → user'.encryptedKey = user.encryptedKey
  groupInfoSecret : user.groupInfoSecret ≠ [] → user'.groupInfoSecret = user.groupInfoSecret
  lacking : encrypted = true → ∃ item ∈ req.accepted, item.uid = uid ∧
    (user.encryptedKey = [] → user'.encryptedKey = item.groupSecret) ∧
    (user.groupInfoSecret = [] → user'.groupInfoSecret = item.groupInfoSecret)

theorem Distributed.keysKept {encrypted : Bool} (h : Distributed req encrypted s t) {uid : Bytes}
    {user : GroupUser} (huid : req.Accepts uid) (hrow : s.row req.gid uid = some user) :
    ∃ user', t.row req.gid uid = some user' ∧ KeysKept req encrypted uid user user' := by
  obtain ⟨user', huser', item, hitem, hitemuid, time, hfilled⟩ :=
    h.filled uid huid (by rw [hrow]; rfl)
  obtain rfl : user = user' := Option.some.inj (hrow.symm.trans huser')
  refine ⟨_, hfilled, ?_, ?_, fun hencrypted => ⟨item, hitem, hitemuid, ?_, ?_⟩⟩
  · intro hkey
    rw [filledFrom_encryptedKey, if_neg hkey]
  · intro hsecret
    rw [filledFrom_groupInfoSecret, if_neg fun hlacks => hsecret hlacks.2]
  · intro hkey
    rw [filledFrom_encryptedKey, if_pos hkey]
  · intro hsecret
    rw [filledFrom_groupInfoSecret, if_pos ⟨hencrypted, hsecret⟩]

theorem Distributed.isSome_row {encrypted : Bool} (h : Distributed req encrypted s t)
    {uid : Bytes} (huid : req.Accepts uid) : (t.row req.gid uid).isSome := by
  cases hrow : s.row req.gid uid with
  | none =>
      obtain ⟨_, -, -, user, huser, -⟩ := h.added uid huid hrow
      rw [huser]
      rfl
  | some user =>
      obtain ⟨user', huser', -⟩ := h.keysKept huid hrow
      rw [huser']
      rfl

/-- Who has left the pending list has a row, or has been rejected. -/
theorem DistributionOutcome.left {encrypted : Bool} {r : Reply}
    (h : DistributionOutcome req encrypted s r t) {uid : Bytes}
    (hleft : t.pending req.gid uid ≠ s.pending req.gid uid) :
    (t.row req.gid uid).isSome ∨ ∃ item ∈ req.list, item.accepted = false ∧ item.uid = uid := by
  cases h with
  | failed _ hpending => exact absurd (by rw [hpending]) hleft
  | done _ hdistributed =>
      rw [hdistributed.pending, withoutPending] at hleft
      by_cases huid : uid ∈ req.list.map ReviewJoinResult.uid
      · obtain ⟨item, hitem, rfl⟩ := List.mem_map.mp huid
        cases haccepted : item.accepted with
        | true => exact Or.inl (hdistributed.isSome_row ⟨item, hitem, haccepted, rfl⟩)
        | false => exact Or.inr ⟨item, hitem, haccepted, rfl⟩
      · exact absurd (if_neg huid) hleft

/-- Group 7 is encrypted, and `[2]` has its keys. -/
private def keysHeld : Store :=
  let s := threeMembers 0
  s.setUsers 7 ((s.users 7).insert [2]
    { GroupUser.newMember [2] 0 0 with encryptedKey := [8], groupInfoSecret := [9] })

/-- `[2]` is accepted, with other keys. -/
private def otherKeys : ReviewJoinResultList where
  gid := 7
  list := [{ uid := [2], accepted := true, groupSecret := [5], groupInfoSecret := [6] }]

end Distribution

end BcmServer.Group
