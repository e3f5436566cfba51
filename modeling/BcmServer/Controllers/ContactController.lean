import BcmServer.Auth.AuthorizationHeader
import BcmServer.Bloom.BloomFilters
import BcmServer.Lts.Pool
import BcmServer.Store.AccountsDao
import BcmServer.Util.Base64

/-!
# BcmServer.Controllers.ContactController — patches of the contacts filters

A client that has the contacts filters of an account sends the bits it wants to change
together with the version of the filters that it has. The version is compared with that
of a copy of the account, which was read when the request was authenticated; the bits
are set in the copy, and the filters are written with a new version later. A version is
the digest of the filters and the time in milliseconds.

`serial_of_current`: the patches that succeed are applied one after the other, each to
the version it names, in every run in which the stored filters still have that version
when they are written and no version is given twice. Two patches of one copy both
succeed, and the bits of the first are lost (`both_patches_succeed`).
-/

namespace BcmServer.Controllers

open Util Lts Store Bloom

/-- `FiltersPatch` -/
structure FiltersPatch where
  position : UInt32
  value : Bool
deriving DecidableEq, Repr

/-- `ContactsFiltersPatchReq` -/
structure ContactsFiltersPatchReq where
  version : Bytes
  patches : List FiltersPatch
deriving DecidableEq, Repr

/-- The entry of a patch in the map of values -/
def FiltersPatch.entry (i : FiltersPatch) : UInt32 × Bool := (i.position, i.value)

/-- The bits that are set by a request, in the order it lists them -/
def ContactsFiltersPatchReq.bits (filtersPatch : ContactsFiltersPatchReq) : List (ℕ × Bool) :=
  filtersPatch.patches.map fun i => (i.position.toNat, i.value)

/-- The controller: Base64 and digests, and the store -/
structure ContactController (F : Type) where
  ext : Http.External F
  /-- `boost::beast::detail::base64_encode` -/
  base64Encode : Bytes → Bytes
  update : UpdateAccount

/-- A request that is about to write -/
structure FiltersWrite where
  filtersPatch : ContactsFiltersPatchReq
  nowInMilli : Int64
  version : Bytes
  edited : ModifyAccount

namespace ContactController

variable {F : Type} (ctl : ContactController F)

/-- `Base64::encode` -/
def encode (target : Bytes) : Bytes := if target.isEmpty then [] else ctl.base64Encode target

/-- `Base64::decode` -/
def decode (target : Bytes) : Bytes := Auth.Base64.decode ctl.ext target false

/-- `account->mutable_contactsfilters()` -/
def filtersContent (account : Account) : ContactsFilters :=
  account.contactsFilters.getD ContactsFilters.fresh

/-- `mValues` -/
def mValues (filtersPatch : ContactsFiltersPatchReq) : Table UInt32 Bool :=
  Table.insertAll ∅ (filtersPatch.patches.map FiltersPatch.entry)

/-- The content that is written: the bits are set in the content of the copy. -/
def patchedContent (filters : ContactsFilters) (filtersPatch : ContactsFiltersPatchReq) : Bytes :=
  let realContent := ctl.decode (filters .content)
  let filters : BloomFilters := ⟨realContent⟩
  ctl.encode (filters.update (mValues filtersPatch)).getFiltersContent

/-- The version of a content -/
def versionOf (content : Bytes) (algo : UInt32) (nowInMilli : Int64) : Bytes :=
  ctl.encode (ctl.ext.sha1 (content ++ decimal algo.toNat)) ++ intDecimal nowInMilli.toInt

/-- `ContactController::patchContactsFilters` up to the write; without a value where it refuses.
The digest is that of the content that was just set. -/
def patchContactsFilters (account : Account) (filtersPatch : ContactsFiltersPatchReq)
    (nowInMilli : Int64) : Option FiltersWrite :=
  let filters := filtersContent account
  let account : Account := { account with contactsFilters := some filters }
  let current : Bytes := filters .version
  if filtersPatch.version ≠ current then none
  else
    let content := ctl.patchedContent filters filtersPatch
    let version := ctl.versionOf content (filters .algo) nowInMilli
    some
      { filtersPatch := filtersPatch
        nowInMilli := nowInMilli
        version := version
        edited := ModifyAccount.after ctl.ext.masterId account
          [.getMutableContactsFilters, .setContent content, .setFiltersVersion version] }

end ContactController

/-! ## Runs -/

/-- A patch that succeeded: what was asked, and the version that was given -/
structure Patched where
  filtersPatch : ContactsFiltersPatchReq
  version : Bytes
deriving DecidableEq, Repr

/-- The version that a patch names -/
def Patched.base (e : Patched) : Bytes := e.filtersPatch.version

/-- The stored account and the patches that succeeded, the last one at the end -/
structure FiltersState where
  stored : Account
  patched : List Patched := []

namespace FiltersWrite

/-- The write, as it ends -/
def write (update : UpdateAccount) (s : FiltersState) (w : FiltersWrite) (result : WriteResult) :
    FiltersState :=
  let (upRet, stored) := w.edited.updateAccount update s.stored result
  { stored := stored
    patched := if upRet then s.patched ++ [⟨w.filtersPatch, w.version⟩] else s.patched }

end FiltersWrite

namespace ContactController

variable {F : Type} (ctl : ContactController F)

/-- Requests are read and handled at once, at the time they name; their writes come later, in any
order. -/
def system :
    CallSystem FiltersState FiltersWrite WriteResult (ContactsFiltersPatchReq × Int64) where
  next s w result := some (w.write ctl.update s result, [])
  env p req := some (p.shared, (ctl.patchContactsFilters p.shared.stored req.1 req.2).toList)

/-- The requests of an account that is stored as `account` -/
def start (account : Account) : Pool FiltersState FiltersWrite :=
  { shared := { stored := account }
    calls := [] }

/-- The version of the filters -/
def version (account : Account) : Bytes := filtersContent account .version

/-- The bytes of the filters -/
def filters (account : Account) : Bytes := ctl.decode (filtersContent account .content)

/-- The versions that the filters have had, the present one at the end -/
def versions (s : FiltersState) : List Bytes := s.patched.map Patched.base ++ [version s.stored]

/-- A patch is written over the version it names, at a time at which no version was given yet,
and if it is made it is reported. -/
def Current (p : Pool FiltersState FiltersWrite) (w : FiltersWrite) (result : WriteResult) :
    Prop :=
  result ≠ .lost ∧ (result = .done →
    w.filtersPatch.version = version p.shared.stored ∧
      ∀ v ∈ versions p.shared, ¬ intDecimal w.nowInMilli.toInt <:+ v)

instance (p : Pool FiltersState FiltersWrite) (w : FiltersWrite) (result : WriteResult) :
    Decidable (Current p w result) :=
  inferInstanceAs (Decidable (_ ∧ (_ → _ ∧ ∀ v ∈ versions p.shared, _)))

/-- The patches that succeeded were applied one after the other. -/
structure Serial (account : Account) (s : FiltersState) : Prop where
  /-- no two of them name the same version -/
  once : (s.patched.map Patched.base).Nodup
  /-- each one names the version that the one before gave, the last of which is there -/
  ordered : s.patched.map Patched.base ++ [version s.stored] =
    version account :: s.patched.map Patched.version
  /-- the filters are those at the beginning with the bits of all of them, in this order -/
  content : ctl.filters s.stored =
    s.patched.foldl (fun filters e => setBits filters e.filtersPatch.bits) (ctl.filters account)

/-- What is relied on: Base64 texts are read back, end no line, and their length is that of what
they stand for but for the filling. -/
structure Base64Lawful : Prop where
  decode_encode : ∀ s, ctl.ext.base64Decode (ctl.base64Encode s) = s
  encode_ne_nil : ∀ s, s ≠ [] → ctl.base64Encode s ≠ []
  return_notMem : ∀ s, 13 ∉ ctl.base64Encode s
  length : ∀ s, ctl.ext.decodedSize (ctl.base64Encode s).length =
    s.length + ((ctl.base64Encode s).reverse.takeWhile (· == 61)).length

variable {ctl}

/-! ## One write -/

theorem decode_encode (hbase64 : ctl.Base64Lawful) (s : Bytes) : ctl.decode (ctl.encode s) = s := by
  by_cases hs : s = []
  · subst hs
    rfl
  · have hne := hbase64.encode_ne_nil s hs
    have hlines : Auth.Base64.eraseLineBreaks (ctl.base64Encode s) = ctl.base64Encode s :=
      Auth.Base64.eraseLineBreaks_of_notMem (hbase64.return_notMem s)
    have hempty : (ctl.base64Encode s).isEmpty = false := by simpa using hne
    have hs' : s.isEmpty = false := by simpa using hs
    simp [encode, hs', decode, Auth.Base64.decode, hlines, hempty, hbase64.decode_encode,
      hbase64.length]

/-- The entries of the map are set like the bits of the list. -/
theorem update_mValues (f : BloomFilters) (filtersPatch : ContactsFiltersPatchReq) :
    (f.update (mValues filtersPatch)).filters = setBits f.filters filtersPatch.bits := by
  rw [mValues, BloomFilters.update_insertAll, List.map_map]
  rfl

theorem decode_patchedContent (hbase64 : ctl.Base64Lawful) (filters : ContactsFilters)
    (filtersPatch : ContactsFiltersPatchReq) :
    ctl.decode (ctl.patchedContent filters filtersPatch) =
      setBits (ctl.decode (filters .content)) filtersPatch.bits := by
  rw [patchedContent, decode_encode hbase64]
  exact update_mValues _ filtersPatch

/-- What a request writes, by the account it was computed from -/
structure Drawn (ctl : ContactController F) (account : Account) (w : FiltersWrite) : Prop where
  base : w.filtersPatch.version = version account
  stamped : intDecimal w.nowInMilli.toInt <:+ w.version
  content : ctl.filters w.edited.account = setBits (ctl.filters account) w.filtersPatch.bits
  version_eq : version w.edited.account = w.version
  named : w.edited.field.modifyfilters = some { modifyfields := ["content", "version"] }

theorem drawn_patchContactsFilters (hbase64 : ctl.Base64Lawful) {account : Account}
    {filtersPatch : ContactsFiltersPatchReq} {nowInMilli : Int64} {w : FiltersWrite}
    (h : ctl.patchContactsFilters account filtersPatch nowInMilli = some w) :
    Drawn ctl account w := by
  simp only [patchContactsFilters] at h
  split_ifs at h with hversion
  cases h
  rw [not_not] at hversion
  refine ⟨hversion, List.suffix_append _ _, ?_, rfl, rfl⟩
  exact decode_patchedContent hbase64 (filtersContent account) filtersPatch

/-- A write puts the filters of the request in the place of the stored ones. -/
theorem write_done (hlawful : ctl.update.Lawful) {w : FiltersWrite} {account : Account}
    (hw : Drawn ctl account w) (s : FiltersState) :
    ctl.filters (w.write ctl.update s .done).stored = ctl.filters w.edited.account ∧
      version (w.write ctl.update s .done).stored = w.version ∧
      (w.write ctl.update s .done).patched = s.patched ++ [⟨w.filtersPatch, w.version⟩] := by
  have hmodified : w.edited.isModified = true := by simp [ModifyAccount.isModified, hw.named]
  have hfilters := hlawful.filters w.edited.field w.edited.account s.stored _ hw.named rfl (by simp)
  simp only [FiltersWrite.write, ModifyAccount.updateAccount, hmodified, if_true, and_true]
  constructor
  · rw [filters, filtersContent, hfilters]
    rfl
  · rw [version, filtersContent, hfilters, ← hw.version_eq]
    rfl

/-! ## Runs -/

/-- What holds in every state. A request that is about to write names a version that the filters
have had; if they still have it, its bits are set in the filters that are there. -/
structure Inv (ctl : ContactController F) (account : Account) (p : Pool FiltersState FiltersWrite) :
    Prop where
  serial : ctl.Serial account p.shared
  fresh : (versions p.shared).Nodup
  known : ∀ w ∈ p.calls, w.filtersPatch.version ∈ versions p.shared
  drawn : ∀ w ∈ p.calls, w.filtersPatch.version = version p.shared.stored →
    ∃ copy, Drawn ctl copy w ∧ ctl.filters copy = ctl.filters p.shared.stored

theorem serial_start (account : Account) : ctl.Serial account (start account).shared :=
  ⟨List.nodup_nil, rfl, rfl⟩

/-- A patch that is written over the version it names comes after the others. -/
theorem serial_write (hlawful : ctl.update.Lawful) {account : Account} {s : FiltersState}
    {w : FiltersWrite} (hs : ctl.Serial account s) (hfresh : (versions s).Nodup)
    (hbase : w.filtersPatch.version = version s.stored) {copy : Account} (hw : Drawn ctl copy w)
    (hcopy : ctl.filters copy = ctl.filters s.stored) :
    ctl.Serial account (w.write ctl.update s .done) := by
  obtain ⟨hfilters, hversion, hpatched⟩ := write_done hlawful hw s
  let patched : Patched := ⟨w.filtersPatch, w.version⟩
  have hbases : (s.patched ++ [patched]).map Patched.base = versions s := by
    rw [List.map_append, versions, ← hbase]
    rfl
  refine ⟨?_, ?_, ?_⟩
  · rw [hpatched, hbases]
    exact hfresh
  · rw [hpatched, hbases, hversion, versions, hs.ordered]
    simp
  · rw [hpatched, List.foldl_concat, ← hs.content, hfilters, hw.content, hcopy]

theorem inv_env (hbase64 : ctl.Base64Lawful) {account : Account}
    {p : Pool FiltersState FiltersWrite} (hp : Inv ctl account p)
    (req : ContactsFiltersPatchReq × Int64) :
    Inv ctl account ⟨p.shared,
      p.calls ++ (ctl.patchContactsFilters p.shared.stored req.1 req.2).toList⟩ := by
  have hnew : ∀ w ∈ (ctl.patchContactsFilters p.shared.stored req.1 req.2).toList,
      Drawn ctl p.shared.stored w := by
    intro w hw
    exact drawn_patchContactsFilters hbase64 (Option.mem_toList.mp hw)
  refine ⟨hp.serial, hp.fresh, fun w hw => ?_, fun w hw hversion => ?_⟩
  · obtain hw | hw := List.mem_append.mp hw
    · exact hp.known w hw
    · rw [(hnew w hw).base]
      exact List.mem_append_right _ List.mem_cons_self
  · obtain hw | hw := List.mem_append.mp hw
    · exact hp.drawn w hw hversion
    · exact ⟨p.shared.stored, hnew w hw, rfl⟩

theorem inv_call (hlawful : ctl.update.Lawful) {account : Account}
    {p q : Pool FiltersState FiltersWrite} {w : FiltersWrite} {rest : List FiltersWrite}
    {result : WriteResult} (hp : Inv ctl account p) (hperm : p.calls.Perm (w :: rest))
    (hcurrent : Current p w result) (hshared : q.shared = w.write ctl.update p.shared result)
    (hcalls : q.calls.Perm rest) : Inv ctl account q := by
  have hw : w ∈ p.calls := hperm.mem_iff.mpr List.mem_cons_self
  have hothers : ∀ w' ∈ q.calls, w' ∈ p.calls := by
    intro w' hw'
    exact hperm.mem_iff.mpr (List.mem_cons_of_mem w (hcalls.mem_iff.mp hw'))
  obtain ⟨hlost, hdone⟩ := hcurrent
  cases result with
  | lost => exact absurd rfl hlost
  | failed =>
      have hsame : q.shared = p.shared := hshared
      refine ⟨?_, ?_, fun w' hw' => ?_, fun w' hw' => ?_⟩
      · rw [hsame]
        exact hp.serial
      · rw [hsame]
        exact hp.fresh
      · rw [hsame]
        exact hp.known w' (hothers w' hw')
      · rw [hsame]
        exact hp.drawn w' (hothers w' hw')
  | done =>
      obtain ⟨hbase, htime⟩ := hdone rfl
      obtain ⟨copy, hdrawn, hcopy⟩ := hp.drawn w hw hbase
      obtain ⟨-, hversion, hpatched⟩ := write_done hlawful hdrawn p.shared
      -- a version that ends in another time is another version
      have hnew : w.version ∉ versions p.shared :=
        fun hmem => htime w.version hmem hdrawn.stamped
      have hversions : versions q.shared = versions p.shared ++ [w.version] := by
        have hlast : Patched.base ⟨w.filtersPatch, w.version⟩ = version p.shared.stored := hbase
        rw [hshared, versions, hversion, hpatched, List.map_append, List.map_singleton, hlast,
          versions]
      refine ⟨?_, ?_, fun w' hw' => ?_, fun w' hw' heq => ?_⟩
      · rw [hshared]
        exact serial_write hlawful hp.serial hp.fresh hbase hdrawn hcopy
      · rw [hversions]
        exact hp.fresh.append (List.nodup_singleton _) (by simpa using hnew)
      · rw [hversions]
        exact List.mem_append_left _ (hp.known w' (hothers w' hw'))
      · -- no other request can name the new version
        rw [hshared, hversion] at heq
        exact absurd (heq ▸ hp.known w' (hothers w' hw')) hnew

/-- In every run in which patches are written over the versions they name and no version is given
twice, the patches that succeed are applied one after the other. -/
theorem serial_of_current (ctl : ContactController F) (hlawful : ctl.update.Lawful)
    (hbase64 : ctl.Base64Lawful) (account : Account)
    {schedule : List (Sched WriteResult (ContactsFiltersPatchReq × Int64))}
    {p : Pool FiltersState FiltersWrite}
    (hrun : ctl.system.machine.run (start account) schedule = some p)
    (hcurrent : ctl.system.machine.Meets (CallSystem.allow Current fun _ _ => True)
      (start account) schedule) : ctl.Serial account p.shared := by
  suffices h : Inv ctl account p from h.serial
  refine ctl.system.run_invariant (Inv ctl account) ?_ ?_ ?_ hcurrent hrun
  · intro p q w rest result s ks hp hperm hcond hnext hshared hcalls
    cases hnext
    exact inv_call hlawful hp hperm hcond hshared hcalls
  · intro p req s ks hp _ henv
    cases henv
    exact inv_env hbase64 hp req
  · exact ⟨serial_start account, List.nodup_singleton _, by simp [start], by simp [start]⟩

/-! ## A filter of one byte -/

/-- The digests of the contents `AQ==`, `Ag==` and `CQ==` with the algorithm 0 -/
private def digests (content : Bytes) : Bytes :=
  if content = [65, 81, 61, 61, 48] then
    [96, 23, 86, 156, 85, 38, 8, 16, 119, 129, 201, 181, 44, 229, 35, 179, 68, 67, 211, 159]
  else if content = [65, 103, 61, 61, 48] then
    [246, 73, 176, 252, 6, 151, 146, 162, 225, 147, 38, 51, 59, 6, 198, 177, 40, 81, 213, 157]
  else
    [29, 77, 94, 228, 241, 226, 163, 131, 32, 27, 48, 110, 230, 170, 152, 136, 252, 118, 225, 253]

private def digesting : ContactController (List (Bytes × Bytes)) where
  ext := Http.External.ofList digests Util.Base64.decode
  base64Encode := Util.Base64.encode
  update := AccountField.apply

private theorem base64Lawful_digesting : digesting.Base64Lawful :=
  ⟨Util.Base64.decode_encode, fun _ => Util.Base64.encode_ne_nil,
    Util.Base64.return_notMem_encode, Util.Base64.length_encode⟩

/-- No bit is set, in the version `V`. -/
private def unset : Account :=
  let filters := Function.update ContactsFilters.fresh .content (Util.Base64.encode [0])
  { contactsFilters := some (Function.update filters .version [86]) }

private def patchOne (version : Bytes) (position : UInt32) : ContactsFiltersPatchReq :=
  { version := version
    patches := [⟨position, true⟩] }

/-- The second patch names the version that the first one gives. -/
private def oneAfterTheOther : List (Sched WriteResult (ContactsFiltersPatchReq × Int64)) :=
  let first := Util.Base64.encode (digests [65, 81, 61, 61, 48]) ++ decimal 1700000000000
  [.env (patchOne [86] 0, 1700000000000), .call 0 .done, .env (patchOne first 3, 1700000000001),
    .call 0 .done]

theorem serial_of_current_twice : ∃ p,
    digesting.system.machine.run (start unset) oneAfterTheOther = some p ∧
      digesting.filters p.shared.stored = [9] ∧ digesting.Serial unset p.shared := by
  have hfilters : ((digesting.system.machine.run (start unset) oneAfterTheOther).map fun p =>
      digesting.filters p.shared.stored) = some [9] := by decide +kernel
  obtain ⟨p, hp, heq⟩ := Option.map_eq_some_iff.mp hfilters
  have hcurrent : digesting.system.machine.Meets (CallSystem.allow Current fun _ _ => True)
      (start unset) oneAfterTheOther := by decide +kernel
  exact ⟨p, hp, heq,
    serial_of_current digesting AccountField.lawful_apply base64Lawful_digesting unset hp hcurrent⟩

/-- Two patches of the same version are read before either is written: both succeed. -/
theorem both_patches_succeed :
    ¬ ∀ (F : Type) (ctl : ContactController F) (_ : ctl.update.Lawful) (_ : ctl.Base64Lawful)
      (account : Account) (schedule : List (Sched WriteResult (ContactsFiltersPatchReq × Int64)))
      (p : Pool FiltersState FiltersWrite),
      ctl.system.machine.run (start account) schedule = some p → ctl.Serial account p.shared := by
  intro h
  let schedule : List (Sched WriteResult (ContactsFiltersPatchReq × Int64)) :=
    [.env (patchOne [86] 0, 1700000000000), .env (patchOne [86] 1, 1700000000001),
      .call 0 .done, .call 0 .done]
  have hbases : ((digesting.system.machine.run (start unset) schedule).map fun p =>
      p.shared.patched.map Patched.base) = some [[86], [86]] := by decide +kernel
  obtain ⟨p, hp, heq⟩ := Option.map_eq_some_iff.mp hbases
  have honce := (h _ digesting AccountField.lawful_apply base64Lawful_digesting unset schedule p
    hp).once
  rw [heq] at honce
  exact absurd honce (by decide)

end ContactController

end BcmServer.Controllers
