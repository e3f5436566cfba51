import BcmServer.Group.Service

/-!
# BcmServer.Group.Extensions — the extensions of a group and their limits

The owner of a group keeps a map with it, of 256 keys at most, with 256 bytes for a
key and 128 KiB for a value. `onSetGroupExtensionInfo` looks at the request alone and
hands it to the database, which merges it with what is there. Two things go past the
limits.

* An entry of the request that is over them sets the status, but the loop does not
  return: the entry is stored, and the status is set again.
* The keys are counted in the request and not in the merge.

`extensions_keepLimits_iff` says that these are the only ones.
-/

namespace BcmServer.Group

open BcmServer.Util BcmServer.Lts

/-! ## The database -/

/-- How the database takes a request: a key that is not named stays as it is, and one that is
named has its new value or is gone. -/
structure ExtensionsMerge where
  merge : Table Bytes Bytes → Table Bytes Bytes → Table Bytes Bytes
  lookup_of_notMem : ∀ stored info k, k ∉ info →
    (merge stored info).lookup k = stored.lookup k
  lookup_of_mem : ∀ stored info k v, info.lookup k = some v →
    (merge stored info).lookup k = none ∨ (merge stored info).lookup k = some v

/-- The tables, with the extensions of the groups -/
structure ExtensionsStore where
  store : Store
  extensions : Gid → Table Bytes Bytes

/-- The calls of the handler -/
inductive ExtensionsCall where
  | getMemberRole (gid : Gid) (uid : Bytes)
  | setGroupExtensionInfo (gid : Gid) (info : Table Bytes Bytes)

@[reducible] def ExtensionsCall.Answer : ExtensionsCall → Type
  | getMemberRole _ _ => Except DaoError Role
  | setGroupExtensionInfo _ _ => Except DaoError Unit

/-- The extensions after a request for a group -/
def ExtensionsStore.set (m : ExtensionsMerge) (d : ExtensionsStore) (gid : Gid)
    (info : Table Bytes Bytes) : ExtensionsStore :=
  { d with extensions := Function.update d.extensions gid (m.merge (d.extensions gid) info) }

def extensionsEffects (m : ExtensionsMerge) : Effects ExtensionsCall.Answer ℕ ExtensionsStore where
  step
    | .getMemberRole _ _, some code, d => (.error (.other code), d)
    | .getMemberRole gid uid, none, d => ((Read.getMemberRole gid uid).eval d.store, d)
    | .setGroupExtensionInfo _ _, some code, d => (.error (.other code), d)
    | .setGroupExtensionInfo gid info, none, d => (.ok (), d.set m gid info)

/-! ## The handler -/

/-- `GroupExtensionInfo` -/
structure GroupExtensionInfo where
  gid : Gid
  extensions : Table Bytes Bytes

/-- The statuses of the handler -/
inductive ExtensionsStatus where
  | ok
  | notGroupOwner
  | internalServerError
deriving DecidableEq, Repr

/-- `res.result`: the status that was there is overwritten. -/
def ExtensionsStatus.result (_res status : ExtensionsStatus) : ExtensionsStatus := status

namespace GroupManagerController

/-- The limits of the handler -/
def maxKeys : ℕ := 256

def maxKeySize : ℕ := 256

def maxValueSize : ℕ := 128 * 1024

/-- The loop over the entries of a request -/
def checkEntries (res : ExtensionsStatus) (extensions : Table Bytes Bytes) : ExtensionsStatus :=
  extensions.entries.foldl (fun res itInfo =>
    if itInfo.1.length > maxKeySize ∨ itInfo.2.length > maxValueSize then
      res.result .internalServerError
    else res) res

/-- The program of one call -/
def getMemberRole (gid : Gid) (uid : Bytes) :
    Program ExtensionsCall.Answer (Except DaoError Role) :=
  Program.perform (ExtensionsCall.getMemberRole gid uid)

def setGroupExtensionInfo (gid : Gid) (info : Table Bytes Bytes) :
    Program ExtensionsCall.Answer (Except DaoError Unit) :=
  Program.perform (ExtensionsCall.setGroupExtensionInfo gid info)

def onSetGroupExtensionInfo (uid : Bytes) (info : GroupExtensionInfo) :
    Program ExtensionsCall.Answer ExtensionsStatus := do
  let res := ExtensionsStatus.ok
  match ← getMemberRole info.gid uid with
  | .error .noSuchData => return res.result .notGroupOwner
  | .error _ => return res.result .internalServerError
  | .ok role =>
      if role ≠ .owner then
        return res.result .notGroupOwner
      else if info.extensions.keys.length > maxKeys then
        return res.result .internalServerError
      else
        -- whatever the loop finds, the request goes to the database
        let res := checkEntries res info.extensions
        match ← setGroupExtensionInfo info.gid info.extensions with
        | .error _ => return res.result .internalServerError
        | .ok () => return res.result .ok

end GroupManagerController

open GroupManagerController

/-- A request with the calls that fail, or whatever else is done to the other tables -/
inductive ExtensionsEvent where
  | request (uid : Bytes) (info : GroupExtensionInfo) (plan : Plan ℕ)
  | other (store : Store)

namespace ExtensionsEvent

/-- The answer to a request, and the tables after it -/
def respond (m : ExtensionsMerge) (d : ExtensionsStore) (uid : Bytes) (info : GroupExtensionInfo)
    (plan : Plan ℕ) : ExtensionsStatus × ExtensionsStore :=
  (onSetGroupExtensionInfo uid info).exec (extensionsEffects m) plan d

def apply (m : ExtensionsMerge) (d : ExtensionsStore) : ExtensionsEvent → ExtensionsStore
  | request uid info plan => (respond m d uid info plan).2
  | other store => { d with store }

end ExtensionsEvent

/-- The extensions of all groups, under requests and other events -/
def extensionsMachine (m : ExtensionsMerge) : Machine ExtensionsStore ExtensionsEvent :=
  ⟨fun d e => some (e.apply m d)⟩

/-! ## The limits -/

/-- An entry is not too long. -/
def EntryWithin (k v : Bytes) : Prop := k.length ≤ maxKeySize ∧ v.length ≤ maxValueSize

/-- The extensions of a group are within the limits. -/
structure TableWithin (t : Table Bytes Bytes) : Prop where
  keys : t.keys.length ≤ maxKeys
  entry : ∀ k v, t.lookup k = some v → EntryWithin k v

/-- The extensions of all groups are. -/
def ExtensionsStore.WithinLimits (d : ExtensionsStore) : Prop :=
  ∀ gid, TableWithin (d.extensions gid)

/-- The step leads to extensions within the limits, and a request that would not is rejected
and changes nothing. -/
def KeepsLimits (m : ExtensionsMerge) (d : ExtensionsStore) (e : ExtensionsEvent) : Prop :=
  (e.apply m d).WithinLimits ∧
    match e with
    | .request uid info plan => ¬ TableWithin (m.merge (d.extensions info.gid) info.extensions) →
        (ExtensionsEvent.respond m d uid info plan).1 ≠ .ok ∧
          (ExtensionsEvent.respond m d uid info plan).2.extensions = d.extensions
    | .other _ => True

/-- The handler gives up, or the database does not take the request. -/
def SetRefused (d : ExtensionsStore) (uid : Bytes) (info : GroupExtensionInfo) (plan : Plan ℕ) :
    Prop :=
  plan 0 ≠ none ∨ d.store.role info.gid uid ≠ some .owner ∨
    info.extensions.keys.length > maxKeys ∨ plan 1 ≠ none

/-- The condition on a step: a request is refused, or no entry that it sets is too long and the
group has room for the keys. -/
def ExtensionsSafe (m : ExtensionsMerge) (d : ExtensionsStore) : ExtensionsEvent → Prop
  | .request uid info plan => SetRefused d uid info plan ∨
      (∀ k v, info.extensions.lookup k = some v →
        k ∈ m.merge (d.extensions info.gid) info.extensions → EntryWithin k v) ∧
      (m.merge (d.extensions info.gid) info.extensions).keys.length ≤ maxKeys
  | .other _ => True

/-! ## One request -/

section Request

variable {m : ExtensionsMerge} {d : ExtensionsStore} {uid : Bytes} {info : GroupExtensionInfo}
  {plan : Plan ℕ}

theorem wp_getMemberRole {gid : Gid} {Q : ExtensionsStatus → Plan ℕ → ExtensionsStore → Prop}
    {k : Except DaoError Role → Program ExtensionsCall.Answer ExtensionsStatus}
    (hfault : ∀ code, plan 0 = some code →
      (k (.error (.other code))).wp (extensionsEffects m) Q plan.tail d)
    (hanswer : plan 0 = none →
      (k (found (d.store.role gid uid))).wp (extensionsEffects m) Q plan.tail d) :
    (getMemberRole gid uid >>= k).wp (extensionsEffects m) Q plan d := by
  apply Program.wp_call
  cases hplan : plan 0 with
  | none => exact hanswer hplan
  | some code => exact hfault code hplan

theorem wp_setGroupExtensionInfo {gid : Gid} {table : Table Bytes Bytes}
    {Q : ExtensionsStatus → Plan ℕ → ExtensionsStore → Prop}
    {k : Except DaoError Unit → Program ExtensionsCall.Answer ExtensionsStatus}
    (hfault : ∀ code, plan 0 = some code →
      (k (.error (.other code))).wp (extensionsEffects m) Q plan.tail d)
    (hdone : plan 0 = none →
      (k (.ok ())).wp (extensionsEffects m) Q plan.tail (d.set m gid table)) :
    (setGroupExtensionInfo gid table >>= k).wp (extensionsEffects m) Q plan d := by
  apply Program.wp_call
  cases hplan : plan 0 with
  | none => exact hdone hplan
  | some code => exact hfault code hplan

/-- What a request does: it is refused without an effect, or the merge is stored. -/
theorem respond_cases :
    SetRefused d uid info plan ∧ (ExtensionsEvent.respond m d uid info plan).1 ≠ .ok ∧
        (ExtensionsEvent.respond m d uid info plan).2 = d ∨
      ¬ SetRefused d uid info plan ∧
        ExtensionsEvent.respond m d uid info plan = (.ok, d.set m info.gid info.extensions) := by
  have hwp : (onSetGroupExtensionInfo uid info).wp (extensionsEffects m) (fun r _ t =>
      SetRefused d uid info plan ∧ r ≠ ExtensionsStatus.ok ∧ t = d ∨
        ¬ SetRefused d uid info plan ∧ r = ExtensionsStatus.ok ∧
          t = d.set m info.gid info.extensions) plan d := by
    refine wp_getMemberRole (fun code hplan => ?_) fun hplan => ?_
    · have hrefused : plan 0 ≠ none := fun h => Option.some_ne_none code (hplan.symm.trans h)
      exact Or.inl ⟨Or.inl hrefused, ExtensionsStatus.noConfusion, rfl⟩
    cases hrole : d.store.role info.gid uid with
    | none =>
        have hrefused : d.store.role info.gid uid ≠ some .owner := by
          rw [hrole]
          exact (Option.some_ne_none Role.owner).symm
        exact Or.inl ⟨Or.inr (Or.inl hrefused), ExtensionsStatus.noConfusion, rfl⟩
    | some role =>
        show Program.wp _ (if _ then _ else _) _ _ _
        by_cases howner : role ≠ .owner
        · rw [if_pos howner]
          have hrefused : d.store.role info.gid uid ≠ some .owner := by
            rw [hrole]
            exact fun h => howner (Option.some.inj h)
          exact Or.inl ⟨Or.inr (Or.inl hrefused), ExtensionsStatus.noConfusion, rfl⟩
        rw [if_neg howner]
        by_cases hkeys : info.extensions.keys.length > maxKeys
        · rw [if_pos hkeys]
          exact Or.inl ⟨Or.inr (Or.inr (Or.inl hkeys)), ExtensionsStatus.noConfusion, rfl⟩
        rw [if_neg hkeys]
        refine wp_setGroupExtensionInfo (fun code hset => ?_) fun hset => ?_
        · have hrefused : plan 1 ≠ none := fun h => Option.some_ne_none code (hset.symm.trans h)
          exact Or.inl ⟨Or.inr (Or.inr (Or.inr hrefused)), ExtensionsStatus.noConfusion, rfl⟩
        · refine Or.inr ⟨?_, rfl, rfl⟩
          rintro (h | h | h | h)
          · exact h hplan
          · rw [hrole, not_not.mp howner] at h
            exact h rfl
          · exact hkeys h
          · exact h hset
  rcases Program.exec_of_wp hwp with ⟨hrefused, hstatus, hsame⟩ | ⟨hnot, hstatus, hnext⟩
  · exact Or.inl ⟨hrefused, hstatus, hsame⟩
  · exact Or.inr ⟨hnot, Prod.ext hstatus hnext⟩

/-- An entry after the merge is in the request or was there before. -/
theorem entry_of_merge {stored table : Table Bytes Bytes} {k v : Bytes}
    (h : (m.merge stored table).lookup k = some v) :
    table.lookup k = some v ∨ stored.lookup k = some v := by
  cases hnew : table.lookup k with
  | none =>
      rw [m.lookup_of_notMem stored table k (AList.lookup_eq_none.mp hnew)] at h
      exact Or.inr h
  | some w =>
      rcases m.lookup_of_mem stored table k w hnew with hgone | hset
      · exact absurd (hgone.symm.trans h) (Option.some_ne_none v).symm
      · exact Or.inl (hset.symm.trans h)

/-- The merge keeps to the limits if the entries that are set do, and there is room. -/
theorem tableWithin_merge_iff {stored table : Table Bytes Bytes} (hstored : TableWithin stored) :
    TableWithin (m.merge stored table) ↔
      (∀ k v, table.lookup k = some v → k ∈ m.merge stored table → EntryWithin k v) ∧
        (m.merge stored table).keys.length ≤ maxKeys := by
  constructor
  · intro h
    refine ⟨fun k v hnew hmem => ?_, h.keys⟩
    rcases m.lookup_of_mem stored table k v hnew with hgone | hset
    · exact absurd hmem (AList.lookup_eq_none.mp hgone)
    · exact h.entry k v hset
  · rintro ⟨hentries, hkeys⟩
    refine ⟨hkeys, fun k v hlookup => ?_⟩
    have hmem : k ∈ m.merge stored table := by
      rw [← AList.lookup_isSome, hlookup]
      rfl
    rcases entry_of_merge hlookup with hnew | hold
    · exact hentries k v hnew hmem
    · exact hstored.entry k v hold

theorem set_withinLimits_iff (hd : d.WithinLimits) {gid : Gid} {table : Table Bytes Bytes} :
    (d.set m gid table).WithinLimits ↔ TableWithin (m.merge (d.extensions gid) table) := by
  have hself : (d.set m gid table).extensions gid = m.merge (d.extensions gid) table :=
    Function.update_self ..
  constructor
  · intro h
    have hgid := h gid
    rwa [hself] at hgid
  · intro h other
    by_cases hgid : other = gid
    · rw [hgid, hself]
      exact h
    · have hother : (d.set m gid table).extensions other = d.extensions other :=
        Function.update_of_ne hgid ..
      rw [hother]
      exact hd other

theorem keepsLimits_iff_safe (hd : d.WithinLimits) (e : ExtensionsEvent) :
    KeepsLimits m d e ↔ ExtensionsSafe m d e := by
  cases e with
  | other store => exact iff_of_true ⟨hd, trivial⟩ trivial
  | request uid info plan =>
      rw [ExtensionsSafe, ← tableWithin_merge_iff (hd info.gid)]
      rcases @respond_cases m d uid info plan with ⟨hrefused, hstatus, hsame⟩ | ⟨hnot, hdone⟩
      · refine iff_of_true ⟨?_, fun _ => ⟨hstatus, congrArg _ hsame⟩⟩ (Or.inl hrefused)
        rw [ExtensionsEvent.apply, hsame]
        exact hd
      · rw [KeepsLimits, ExtensionsEvent.apply, hdone, set_withinLimits_iff hd, or_iff_right hnot]
        exact ⟨fun h => h.1, fun h => ⟨h, fun hbreaks => absurd h hbreaks⟩⟩

end Request

/-! ## Runs -/

/-- The extensions stay within their limits in the runs, and no others, in which each request
is refused, or sets no entry that is too long and leaves no more than 256 keys. -/
theorem extensions_keepLimits_iff (m : ExtensionsMerge) {d : ExtensionsStore}
    (hd : d.WithinLimits) (es : List ExtensionsEvent) :
    (extensionsMachine m).Meets (KeepsLimits m) d es ↔
      (extensionsMachine m).Meets (ExtensionsSafe m) d es := by
  induction es generalizing d with
  | nil => exact Iff.rfl
  | cons e es ih =>
      have hstep : (extensionsMachine m).step d e = some (e.apply m d) := rfl
      rw [Machine.meets_cons _ hstep, Machine.meets_cons _ hstep, ← keepsLimits_iff_safe hd]
      exact and_congr_right fun hkeeps => ih hkeeps.1

/-! ## Two requests -/

/-- A database that replaces the values of the keys that are named -/
def replacing : ExtensionsMerge where
  merge stored info := info ∪ stored
  lookup_of_notMem _ _ _ hk := AList.lookup_union_right hk
  lookup_of_mem _ _ _ _ hv := by
    have hmem := AList.lookup_isSome.mp (Option.isSome_of_eq_some hv)
    exact Or.inr ((AList.lookup_union_left hmem).trans hv)

/-- Group 7 of the owner `[1]`, without extensions -/
def noExtensions : ExtensionsStore where
  store := threeMembers 0
  extensions := fun _ => ∅

theorem noExtensions_withinLimits : noExtensions.WithinLimits :=
  fun _ => ⟨Nat.zero_le _, fun _ _ h => absurd h (Option.some_ne_none _).symm⟩

/-- The owner sets one key of group 7 to `[0]`. -/
def setKey (key : Bytes) : ExtensionsEvent :=
  .request [1] ⟨7, (∅ : Table Bytes Bytes).insert key [0]⟩ .clean

/-- A short key is set. -/
theorem extensions_keepLimits_short :
    (extensionsMachine replacing).Meets (KeepsLimits replacing) noExtensions [setKey [1]] := by
  refine (extensions_keepLimits_iff replacing noExtensions_withinLimits _).mpr ⟨Or.inr ⟨?_, ?_⟩,
    trivial⟩
  · intro k v hlookup _
    by_cases hk : k = [1]
    · subst hk
      rw [AList.lookup_insert] at hlookup
      rw [← Option.some.inj hlookup]
      exact ⟨by decide, by decide⟩
    · rw [AList.lookup_insert_ne hk] at hlookup
      exact absurd hlookup (Option.some_ne_none v).symm
  · decide

/-- A key of 257 bytes is set as well. -/
theorem not_extensions_keepLimits : noExtensions.WithinLimits ∧
    ¬ (extensionsMachine replacing).Meets (KeepsLimits replacing) noExtensions
      [setKey (List.replicate 257 0)] := by
  refine ⟨noExtensions_withinLimits, fun h => ?_⟩
  rcases (keepsLimits_iff_safe noExtensions_withinLimits _).mp h.1 with
    (hrefused | hrefused | hrefused | hrefused) | ⟨hentries, _⟩
  · exact hrefused rfl
  · exact hrefused (by decide)
  · exact absurd hrefused (by decide)
  · exact hrefused rfl
  · have hmem : List.replicate 257 0 ∈ (∅ : Table Bytes Bytes).insert (List.replicate 257 0) [0] :=
      (AList.mem_insert _).mpr (Or.inl rfl)
    have hentry := hentries _ _ (AList.lookup_insert _) (AList.mem_union.mpr (Or.inl hmem))
    have hlength := hentry.1
    rw [List.length_replicate] at hlength
    exact absurd hlength (by decide)

end BcmServer.Group
