import BcmServer.Group.KeyEntries
import BcmServer.Group.Requests
import BcmServer.Lts.Pool

/-!
# BcmServer.Group.KeysCache — the keys prepared for an update

A message with the id `mid` asks the members of a group for new keys, whose
version will be `mid`. The member who makes them asks `onPrepareKeyUpdateV3` for
the keys of the devices of the group. They are read once and kept in redis under
the group and the version: by `sendGroupKeysUpdateRequestWithRetry` after it has
created the message, or by `onPrepareKeyUpdateV3` itself if it finds none.

The version is the client's. If it names a message that does not exist yet, the
keys that are read now are given out when the message exists.

* `deserialize_serialize`: the text in redis has the keys that were put into it.
* `prepared_fresh`: the keys that are returned for a version were not read before
  the message of the version was created, provided that no keys are read for a
  version above the last message of its group.
* `prepared_stale`: a run in which a device is given the keys of a member who was
  removed before the message was created.
-/

namespace BcmServer.Group

open Util Lts

/-! ## The text in redis -/

/-- `bcm::Keys` and what protobuf makes of it -/
structure KeysFormat (K : Type) where
  serializeToCodedStream : K → Bytes
  parseFromCodedStream : Bytes → Option K
  parse_serialize : ∀ k, parseFromCodedStream (serializeToCodedStream k) = some k
  byteSize_lt : ∀ k, (serializeToCodedStream k).length < 2 ^ 32

/-- `WriteLittleEndian32` -/
def writeLittleEndian32 (n : ℕ) : Bytes :=
  [UInt8.ofNat n, UInt8.ofNat (n / 2 ^ 8), UInt8.ofNat (n / 2 ^ 16), UInt8.ofNat (n / 2 ^ 24)]

/-- `ReadLittleEndian32FromArray`, with the rest of the text -/
def readLittleEndian32 : Bytes → Option (ℕ × Bytes)
  | a :: b :: c :: d :: rest =>
      some (a.toNat + 2 ^ 8 * b.toNat + 2 ^ 16 * c.toNat + 2 ^ 24 * d.toNat, rest)
  | _ => none

theorem read_writeLittleEndian32 {n : ℕ} (h : n < 2 ^ 32) (rest : Bytes) :
    readLittleEndian32 (writeLittleEndian32 n ++ rest) = some (n, rest) := by
  have hvalue : n % 2 ^ 8 + 2 ^ 8 * (n / 2 ^ 8 % 2 ^ 8) + 2 ^ 16 * (n / 2 ^ 16 % 2 ^ 8) +
      2 ^ 24 * (n / 2 ^ 24 % 2 ^ 8) = n := by omega
  simp only [writeLittleEndian32, List.cons_append, List.nil_append, readLittleEndian32,
    UInt8.toNat_ofNat', hvalue]

namespace KeysCache

section Text

variable {K : Type} (F : KeysFormat K)

/-- A key with its length before it -/
def framed (k : K) : Bytes :=
  writeLittleEndian32 (F.serializeToCodedStream k).length ++ F.serializeToCodedStream k

/-- `KeysCache::serialize`; no keys are not serialized. -/
def serialize (keys : List K) : Option Bytes :=
  if keys.isEmpty then none else some (keys.flatMap (framed F))

/-- The loop of `deserialize`, of at most so many rounds. The source reads beyond the end of a
text that is too short. -/
def deserializeFrom : ℕ → Bytes → Option (List K)
  | 0, _ => none
  | n + 1, value =>
      if value.isEmpty then some []
      else
        match readLittleEndian32 value with
        | none => none
        | some (len, rest) =>
            match F.parseFromCodedStream (rest.take len) with
            | none => none
            | some key => (deserializeFrom n (rest.drop len)).map (key :: ·)

/-- `KeysCache::deserialize`; each round takes four bytes or more. -/
def deserialize (value : Bytes) : Option (List K) := deserializeFrom F (value.length + 1) value

theorem deserializeFrom_framed (keys : List K) {n : ℕ} (hn : keys.length < n) :
    deserializeFrom F n (keys.flatMap (framed F)) = some keys := by
  induction keys generalizing n with
  | nil =>
      obtain ⟨n, rfl⟩ := Nat.exists_eq_add_of_lt hn
      rfl
  | cons k keys ih =>
      obtain ⟨m, rfl⟩ : ∃ m, n = m + 1 := ⟨n - 1, by omega⟩
      have htext : (k :: keys).flatMap (framed F) = writeLittleEndian32
          (F.serializeToCodedStream k).length ++ (F.serializeToCodedStream k ++
            keys.flatMap (framed F)) := by
        rw [List.flatMap_cons, framed, List.append_assoc]
      have hne : ((k :: keys).flatMap (framed F)).isEmpty = false := by
        rw [htext]
        rfl
      rw [deserializeFrom, hne, if_neg Bool.false_ne_true, htext,
        read_writeLittleEndian32 (F.byteSize_lt k)]
      dsimp only
      rw [List.take_left', List.drop_left', F.parse_serialize, ih (by simpa using hn)]
      · rfl
      · rfl
      · rfl

theorem exists_serialize {keys : List K} (h : keys ≠ []) :
    ∃ value, serialize F keys = some value ∧ value.isEmpty = false := by
  cases keys with
  | nil => exact absurd rfl h
  | cons k keys => exact ⟨_, rfl, rfl⟩

/-- A text has the keys that were put into it. -/
theorem deserialize_serialize {keys : List K} {value : Bytes} (h : serialize F keys = some value) :
    deserialize F value = some keys := by
  unfold serialize at h
  split at h
  · cases h
  · cases h
    refine deserializeFrom_framed F keys ?_
    have hlen : keys.length ≤ (keys.flatMap (framed F)).length := by
      have hone : ∀ n ∈ keys.map fun k => (framed F k).length, 1 ≤ n := by
        intro n hn
        obtain ⟨k, -, rfl⟩ := List.mem_map.mp hn
        simp [framed, writeLittleEndian32]
      rw [List.length_flatMap]
      simpa using List.length_le_sum_of_one_le _ hone
    omega

end Text

/-- `KeysCache::cacheKey` -/
def cacheKey (gid : Gid) (version : Int64) : Bytes :=
  decimal gid.toNat ++ ascii ['_'] ++ intDecimal version.toInt

theorem cacheKey_inj {gid gid' : Gid} {version version' : Int64}
    (h : cacheKey gid version = cacheKey gid' version') : gid = gid' ∧ version = version' := by
  have hsep : ∀ n, '_'.toUInt8 ∉ intDecimal n := notMem_intDecimal (by decide) (by decide)
  simp only [cacheKey, List.append_assoc] at h
  obtain ⟨hgid, hversion⟩ := append_separator_inj (hsep _) (hsep _) h
  exact ⟨UInt64.toNat_inj.mp (decimal_injective hgid),
    Int64.toInt_inj.mp (intDecimal_injective hversion)⟩

/-! ## Requests and messages -/

/-- `PrepareKeyUpdateRequestV3` -/
structure PrepareRequest where
  gid : Gid
  version : Int64
  mode : GroupKeysMode
deriving DecidableEq, Repr

/-- A message that asks for new keys, and the moment at which it was created -/
structure UpdateRequest where
  gid : Gid
  mid : UInt64
  createdAt : ℕ
deriving DecidableEq, Repr

/-- Keys, and the moment at which they were read from the accounts -/
structure KeysRead (K : Type) where
  keys : List K
  readAt : ℕ
deriving DecidableEq, Repr

/-- A text in redis, and the moment at which the keys in it were read -/
structure Cached where
  value : Bytes
  readAt : ℕ
deriving DecidableEq, Repr

/-- A response of `onPrepareKeyUpdateV3`, with the keys in it -/
structure PrepareResponse (K : Type) where
  request : PrepareRequest
  status : ℕ
  keys : Option (KeysRead K) := none
deriving DecidableEq, Repr

/-- The stores, and the responses so far. The clock counts the steps. -/
structure World (K : Type) where
  clock : ℕ := 0
  /-- the keys of the devices of the members -/
  accounts : Gid → List K
  lastMid : Gid → UInt64
  /-- the version of the latest group keys -/
  latestVersion : Gid → Option Int64
  redis : Bytes → Option Cached := fun _ => none
  updateRequests : List UpdateRequest := []
  responses : List (PrepareResponse K) := []

/-- A call of `onPrepareKeyUpdateV3` or of `sendGroupKeysUpdateRequestWithRetry`, by what it
does next. `getKeys` and `setKeys` are of the first one, `readKeys` and `addKeys` of the second. -/
inductive Call (K : Type) where
  | getGroup (r : PrepareRequest)
  | getLatestModeAndVersion (r : PrepareRequest)
  | selectCandidates (r : PrepareRequest)
  | queryCache (r : PrepareRequest)
  | getKeys (r : PrepareRequest)
  | setKeys (r : PrepareRequest) (read : KeysRead K)
  | pubMessage (gid : Gid) (mode : GroupKeysMode) (i : ℕ)
  | readKeys (gid : Gid) (mid : UInt64)
  | addKeys (gid : Gid) (mid : UInt64) (read : KeysRead K)
deriving DecidableEq, Repr

/-- What a read or a write gives: the version of the group, whether the caller is one of the
candidates, the id of the new message -/
inductive Reply where
  | success
  | noSuchData
  | failed
  | group (version : Int32)
  | candidate (b : Bool)
  | inserted (mid : UInt64)
deriving DecidableEq, Repr

/-- What happens around the calls: a request, a request for new keys, a member joins or leaves
or has other keys, a message of the group, group keys are uploaded, a text in redis is gone -/
inductive Around (K : Type) where
  | prepare (r : PrepareRequest)
  | requestKeys (gid : Gid) (mode : GroupKeysMode)
  | changeKeys (gid : Gid) (keys : List K)
  | message (gid : Gid) (mid : UInt64) (update : Bool)
  | upload (gid : Gid) (version : Int64)
  | expire (key : Bytes)
deriving DecidableEq, Repr

namespace World

variable {K : Type}

/-- One more step -/
def tick (s : World K) : World K := { s with clock := s.clock + 1 }

/-- The response of a request -/
def respond (s : World K) (r : PrepareRequest) (status : ℕ)
    (keys : Option (KeysRead K) := none) : World K :=
  { s with responses := ⟨r, status, keys⟩ :: s.responses }

/-- The group has a new message, which may ask for new keys. -/
def insertMessage (s : World K) (gid : Gid) (mid : UInt64) (update : Bool) : World K :=
  { s with
    lastMid := Function.update s.lastMid gid mid
    updateRequests :=
      if update then ⟨gid, mid, s.clock⟩ :: s.updateRequests else s.updateRequests }

@[simp] theorem insertMessage_lastMid (s : World K) (gid : Gid) (mid : UInt64) (update : Bool) :
    (s.insertMessage gid mid update).lastMid = Function.update s.lastMid gid mid := rfl

/-- What `getKeysByGid` gives -/
def read (s : World K) (gid : Gid) : KeysRead K := ⟨s.accounts gid, s.clock⟩

end World

section Steps

variable {K : Type} (F : KeysFormat K)

/-- `KeysCache::get`, unless redis fails -/
def get (s : World K) (gid : Gid) (version : Int64) : Option (KeysRead K) :=
  match s.redis (cacheKey gid version) with
  | none => none
  | some c => if c.value.isEmpty then none else (deserialize F c.value).map (⟨·, c.readAt⟩)

/-- `KeysCache::set`, unless redis fails -/
def set (s : World K) (gid : Gid) (version : Int64) (read : KeysRead K) : World K :=
  match serialize F read.keys with
  | none => s
  | some value =>
      { s with redis := Function.update s.redis (cacheKey gid version) (some ⟨value, read.readAt⟩) }

/-- Keys that were set are found, with the moment of their read. -/
theorem get_set (s : World K) (gid : Gid) (version : Int64) {read : KeysRead K}
    (hkeys : read.keys ≠ []) : get F (set F s gid version read) gid version = some read := by
  obtain ⟨value, hvalue, hne⟩ := exists_serialize F hkeys
  unfold get set
  rw [hvalue]
  dsimp only
  rw [Function.update_self]
  dsimp only
  rw [hne, if_neg Bool.false_ne_true, deserialize_serialize F hvalue]
  rfl

/-- One step of a call -/
def next (s : World K) : Call K → Reply → Option (World K × List (Call K))
  | .getGroup r, .noSuchData => some (s.respond r 400, [])
  | .getGroup r, .failed => some (s.respond r 500, [])
  | .getGroup r, .group version =>
      if version ≠ groupV3 then some (s.respond r 400, [])
      else some (s, [.getLatestModeAndVersion r])
  | .getLatestModeAndVersion r, .failed => some (s.respond r 500, [])
  | .getLatestModeAndVersion r, .success =>
      if ∃ v ∈ s.latestVersion r.gid, r.version ≤ v then some (s.respond r 409, [])
      else some (s, [.selectCandidates r])
  | .selectCandidates r, .candidate b =>
      if !b then some (s.respond r 409, [])
      else if r.mode = .oneForEach then some (s, [.queryCache r])
      else some (s.respond r 200, [])
  | .queryCache r, .failed => some (s, [.getKeys r])
  | .queryCache r, .success =>
      match get F s r.gid r.version with
      | some read => some (s.respond r 200 (some read), [])
      | none => some (s, [.getKeys r])
  | .getKeys r, .failed => some (s.respond r 500, [])
  | .getKeys r, .noSuchData => some (s, [.setKeys r ⟨[], s.clock⟩])
  | .getKeys r, .success => some (s, [.setKeys r (s.read r.gid)])
  | .setKeys r read, .failed => some (s.respond r 200 (some read), [])
  | .setKeys r read, .success =>
      some ((set F s r.gid r.version read).respond r 200 (some read), [])
  | .pubMessage gid mode i, .failed =>
      if i < 3 then some (s, [.pubMessage gid mode (i + 1)]) else some (s, [])
  | .pubMessage gid mode _, .inserted mid =>
      -- the ids of the messages of a group grow
      if s.lastMid gid < mid then
        some (s.insertMessage gid mid true,
          if mode = .oneForEach then [.readKeys gid mid] else [])
      else none
  | .readKeys gid mid, .success => some (s, [.addKeys gid mid (s.read gid)])
  | .readKeys _ _, .noSuchData => some (s, [])
  | .readKeys _ _, .failed => some (s, [])
  | .addKeys _ _ _, .failed => some (s, [])
  | .addKeys gid mid read, .success => some (set F s gid mid.toInt64 read, [])
  | _, _ => none

/-- What happens around the calls -/
def around (s : World K) : Around K → Option (World K × List (Call K))
  | .prepare r => some (s, [.getGroup r])
  | .requestKeys gid mode => some (s, [.pubMessage gid mode 1])
  | .changeKeys gid keys =>
      some ({ s with accounts := Function.update s.accounts gid keys }, [])
  | .message gid mid update =>
      if s.lastMid gid < mid then some (s.insertMessage gid mid update, []) else none
  | .upload gid version =>
      some ({ s with latestVersion := Function.update s.latestVersion gid (some version) }, [])
  | .expire key => some ({ s with redis := Function.update s.redis key none }, [])

/-- The servers with their calls -/
def system : CallSystem (World K) (Call K) Reply (Around K) where
  next := fun s k e => (next F s k e).map fun r => (r.1.tick, r.2)
  env := fun p h => (around p.shared h).map fun r => (r.1.tick, r.2)

end Steps

/-! ## The moment of the read -/

section Fresh

variable {K : Type} {F : KeysFormat K} {s s' : World K} {gid : Gid} {version : Int64} {readAt : ℕ}

/-- The message whose id is the version was not created after the keys were read. -/
def Fresh (s : World K) (gid : Gid) (version : Int64) (readAt : ℕ) : Prop :=
  ∀ m ∈ s.updateRequests, m.gid = gid → (m.mid.toNat : ℤ) = version.toInt → m.createdAt ≤ readAt

/-- No later message has the version as its id. -/
structure Settled (s : World K) (gid : Gid) (version : Int64) (readAt : ℕ) : Prop where
  le : version.toInt ≤ (s.lastMid gid).toNat
  fresh : Fresh s gid version readAt

/-- New messages have ids above the last ones. -/
structure Extends (s s' : World K) : Prop where
  lastMid : ∀ gid, s.lastMid gid ≤ s'.lastMid gid
  updateRequests : ∀ m ∈ s'.updateRequests, m ∈ s.updateRequests ∨ s.lastMid m.gid < m.mid

theorem extends_of_eq (hmid : s'.lastMid = s.lastMid)
    (hrequests : s'.updateRequests = s.updateRequests) : Extends s s' where
  lastMid := fun _ => hmid ▸ UInt64.le_refl _
  updateRequests := fun _ hm => .inl (hrequests ▸ hm)

theorem Extends.respond (h : Extends s s') (r : PrepareRequest) (status : ℕ)
    (keys : Option (KeysRead K)) : Extends s (s'.respond r status keys) :=
  ⟨h.lastMid, h.updateRequests⟩

theorem Settled.extend (h : Settled s gid version readAt) (hext : Extends s s') :
    Settled s' gid version readAt := by
  have hmid : (s.lastMid gid).toNat ≤ (s'.lastMid gid).toNat := hext.lastMid gid
  constructor
  · have hle := h.le
    omega
  · intro m hm hgid hversion
    obtain hold | hnew := hext.updateRequests m hm
    · exact h.fresh m hold hgid hversion
    · -- a new message is above the version
      have hlt : (s.lastMid gid).toNat < m.mid.toNat := by
        rw [← hgid]
        exact hnew
      have hle := h.le
      omega

/-- What the stores have was read in time. -/
structure Consistent (s : World K) : Prop where
  created : ∀ m ∈ s.updateRequests, m.createdAt ≤ s.clock
  redis : ∀ gid version c, s.redis (cacheKey gid version) = some c →
    Settled s gid version c.readAt
  responses : ∀ a ∈ s.responses, ∀ read, a.keys = some read →
    Settled s a.request.gid a.request.version read.readAt

/-- All messages so far were created before now. -/
theorem Consistent.settled_clock (h : Consistent s) (hle : version.toInt ≤ (s.lastMid gid).toNat) :
    Settled s gid version s.clock :=
  ⟨hle, fun m hm _ _ => h.created m hm⟩

/-- The stores after a step that has written neither to redis nor to the responses. -/
theorem Consistent.extend (h : Consistent s) (hext : Extends s s')
    (hcreated : ∀ m ∈ s'.updateRequests, m.createdAt ≤ s'.clock)
    (hredis : ∀ key c, s'.redis key = some c → s.redis key = some c)
    (hresponses : s'.responses = s.responses) : Consistent s' where
  created := hcreated
  redis := fun gid version c hc => (h.redis gid version c (hredis _ c hc)).extend hext
  responses := fun a ha read hread =>
    (h.responses a (hresponses ▸ ha) read hread).extend hext

theorem Consistent.respond (h : Consistent s) {r : PrepareRequest} {status : ℕ}
    {keys : Option (KeysRead K)}
    (hkeys : ∀ read, keys = some read → Settled s r.gid r.version read.readAt) :
    Consistent (s.respond r status keys) where
  created := h.created
  redis := fun gid version c hc => (h.redis gid version c hc).extend (extends_of_eq rfl rfl)
  responses := by
    intro a ha read hread
    obtain rfl | ha := List.mem_cons.mp ha
    · exact (hkeys read hread).extend (extends_of_eq rfl rfl)
    · exact (h.responses a ha read hread).extend (extends_of_eq rfl rfl)

theorem set_extends (read : KeysRead K) : Extends s (set F s gid version read) := by
  unfold set
  split
  · exact extends_of_eq rfl rfl
  · exact extends_of_eq rfl rfl

theorem Consistent.set (h : Consistent s) {read : KeysRead K}
    (hread : Settled s gid version read.readAt) : Consistent (set F s gid version read) := by
  unfold KeysCache.set
  split
  · exact h
  · rename_i value hvalue
    refine ⟨h.created, ?_, ?_⟩
    · intro gid' version' c hc
      dsimp only at hc
      by_cases hkey : cacheKey gid' version' = cacheKey gid version
      · obtain ⟨rfl, rfl⟩ := cacheKey_inj hkey
        rw [Function.update_self] at hc
        cases hc
        exact hread.extend (extends_of_eq rfl rfl)
      · rw [Function.update_of_ne hkey] at hc
        exact (h.redis gid' version' c hc).extend (extends_of_eq rfl rfl)
    · intro a ha read hread
      exact (h.responses a ha read hread).extend (extends_of_eq rfl rfl)

/-- What is found in redis was read in time. -/
theorem Consistent.get (h : Consistent s) {read : KeysRead K}
    (hget : get F s gid version = some read) : Settled s gid version read.readAt := by
  unfold KeysCache.get at hget
  split at hget
  · cases hget
  · rename_i c hc
    split at hget
    · cases hget
    · obtain ⟨keys, -, rfl⟩ := Option.map_eq_some_iff.mp hget
      exact h.redis gid version c hc

theorem insertMessage_extends {mid : UInt64} (hmid : s.lastMid gid < mid) (update : Bool) :
    Extends s (s.insertMessage gid mid update) where
  lastMid := by
    intro gid'
    by_cases hgid : gid' = gid
    · subst hgid
      rw [World.insertMessage_lastMid, Function.update_self]
      exact UInt64.le_of_lt hmid
    · rw [World.insertMessage_lastMid, Function.update_of_ne hgid]
      exact UInt64.le_refl _
  updateRequests := by
    intro m hm
    unfold World.insertMessage at hm
    cases update with
    | false => exact .inl hm
    | true =>
        obtain rfl | hm := List.mem_cons.mp hm
        · exact .inr hmid
        · exact .inl hm

theorem Consistent.insertMessage (h : Consistent s) {mid : UInt64} (hmid : s.lastMid gid < mid)
    (update : Bool) : Consistent (s.insertMessage gid mid update) := by
  refine h.extend (insertMessage_extends hmid update) ?_ (fun _ _ hc => hc) rfl
  intro m hm
  unfold World.insertMessage at hm
  cases update with
  | false => exact h.created m hm
  | true =>
      obtain rfl | hm := List.mem_cons.mp hm
      · exact le_refl s.clock
      · exact h.created m hm

theorem Consistent.tick (h : Consistent s) : Consistent s.tick := by
  refine h.extend (extends_of_eq rfl rfl) ?_ (fun _ _ hc => hc) rfl
  intro m hm
  have hle : m.createdAt ≤ s.clock := h.created m hm
  show m.createdAt ≤ s.clock + 1
  omega

/-! ## Steps -/

/-- What a call carries was read in time; the message whose keys are to be added exists. -/
def Call.Holds (s : World K) : Call K → Prop
  | .setKeys r read => Settled s r.gid r.version read.readAt
  | .readKeys gid mid => mid ≤ s.lastMid gid
  | .addKeys gid mid read => Settled s gid mid.toInt64 read.readAt
  | _ => True

theorem Call.Holds.extend {k : Call K} (h : k.Holds s) (hext : Extends s s') : k.Holds s' := by
  cases k with
  | setKeys r read => exact Settled.extend h hext
  | readKeys gid mid => exact UInt64.le_trans h (hext.lastMid gid)
  | addKeys gid mid read => exact Settled.extend h hext
  | _ => trivial

/-- The keys that `onPrepareKeyUpdateV3` reads are for a version that some message of the group
has reached. -/
def VersionReached (s : World K) : Call K → Reply → Prop
  | .getKeys r, .success | .getKeys r, .noSuchData => r.version.toInt ≤ (s.lastMid r.gid).toNat
  | _, _ => True

instance : ∀ (s : World K) (k : Call K) (e : Reply), Decidable (VersionReached s k e) := by
  intro s k e
  unfold VersionReached
  split <;> infer_instance

theorem toInt64_le (mid : UInt64) : mid.toInt64.toInt ≤ mid.toNat := by
  show mid.toBitVec.toInt ≤ mid.toBitVec.toNat
  rw [BitVec.toInt_eq_toNat_cond]
  split <;> omega

/-- What a step leaves -/
structure Leaves (s s' : World K) (ks : List (Call K)) : Prop where
  consistent : Consistent s'
  extended : Extends s s'
  calls : ∀ k ∈ ks, k.Holds s'

theorem leaves_self (h : Consistent s) {k : Call K} (hk : k.Holds s) : Leaves s s [k] where
  consistent := h
  extended := extends_of_eq rfl rfl
  calls := by
    intro k' hk'
    rw [List.mem_singleton.mp hk']
    exact hk

theorem leaves_nil (h : Consistent s') (hext : Extends s s') : Leaves s s' [] where
  consistent := h
  extended := hext
  calls := fun _ hk => absurd hk List.not_mem_nil

/-- A response without keys -/
theorem leaves_refused (h : Consistent s) (r : PrepareRequest) (status : ℕ) :
    Leaves s (s.respond r status) [] :=
  leaves_nil (h.respond fun _ hread => nomatch hread) (extends_of_eq rfl rfl)

theorem leaves_answered (h : Consistent s) {r : PrepareRequest} {read : KeysRead K}
    (hread : Settled s r.gid r.version read.readAt) :
    Leaves s (s.respond r 200 (some read)) [] := by
  refine leaves_nil (h.respond ?_) (extends_of_eq rfl rfl)
  intro read' heq
  cases heq
  exact hread

theorem next_leaves {k : Call K} {e : Reply} {ks : List (Call K)} (h : Consistent s)
    (hk : k.Holds s) (hreached : VersionReached s k e) (hnext : next F s k e = some (s', ks)) :
    Leaves s s' ks := by
  cases k with
  | getGroup r =>
      cases e with
      | noSuchData =>
          cases hnext
          exact leaves_refused h r 400
      | failed =>
          cases hnext
          exact leaves_refused h r 500
      | group version =>
          simp only [next] at hnext
          split at hnext
          · cases hnext
            exact leaves_refused h r 400
          · cases hnext
            exact leaves_self h trivial
      | _ => cases hnext
  | getLatestModeAndVersion r =>
      cases e with
      | failed =>
          cases hnext
          exact leaves_refused h r 500
      | success =>
          simp only [next] at hnext
          split at hnext
          · cases hnext
            exact leaves_refused h r 409
          · cases hnext
            exact leaves_self h trivial
      | _ => cases hnext
  | selectCandidates r =>
      cases e with
      | candidate b =>
          simp only [next] at hnext
          split at hnext
          · cases hnext
            exact leaves_refused h r 409
          · split at hnext
            · cases hnext
              exact leaves_self h trivial
            · cases hnext
              exact leaves_refused h r 200
      | _ => cases hnext
  | queryCache r =>
      cases e with
      | failed =>
          cases hnext
          exact leaves_self h trivial
      | success =>
          simp only [next] at hnext
          cases hget : get F s r.gid r.version with
          | none =>
              rw [hget] at hnext
              cases hnext
              exact leaves_self h trivial
          | some read =>
              rw [hget] at hnext
              cases hnext
              exact leaves_answered h (h.get hget)
      | _ => cases hnext
  | getKeys r =>
      cases e with
      | failed =>
          cases hnext
          exact leaves_refused h r 500
      | noSuchData =>
          cases hnext
          exact leaves_self h (h.settled_clock hreached)
      | success =>
          cases hnext
          exact leaves_self h (h.settled_clock hreached)
      | _ => cases hnext
  | setKeys r read =>
      cases e with
      | failed =>
          cases hnext
          exact leaves_answered h hk
      | success =>
          cases hnext
          have hset : Settled (set F s r.gid r.version read) r.gid r.version read.readAt :=
            Settled.extend hk (set_extends read)
          have hanswer := leaves_answered (h.set (F := F) hk) hset
          exact leaves_nil hanswer.consistent ((set_extends read).respond r 200 (some read))
      | _ => cases hnext
  | pubMessage gid mode i =>
      cases e with
      | failed =>
          simp only [next] at hnext
          split at hnext
          · cases hnext
            exact leaves_self h trivial
          · cases hnext
            exact leaves_nil h (extends_of_eq rfl rfl)
      | inserted mid =>
          simp only [next] at hnext
          split at hnext
          · rename_i hmid
            cases hnext
            refine ⟨h.insertMessage hmid true, insertMessage_extends hmid true, ?_⟩
            intro k' hk'
            split at hk'
            · rw [List.mem_singleton.mp hk']
              show mid ≤ (s.insertMessage gid mid true).lastMid gid
              rw [World.insertMessage_lastMid, Function.update_self]
              exact UInt64.le_refl _
            · exact absurd hk' List.not_mem_nil
          · cases hnext
      | _ => cases hnext
  | readKeys gid mid =>
      cases e with
      | success =>
          cases hnext
          refine leaves_self h (h.settled_clock ?_)
          have hmid : mid.toNat ≤ (s.lastMid gid).toNat := hk
          have hversion := toInt64_le mid
          omega
      | noSuchData =>
          cases hnext
          exact leaves_nil h (extends_of_eq rfl rfl)
      | failed =>
          cases hnext
          exact leaves_nil h (extends_of_eq rfl rfl)
      | _ => cases hnext
  | addKeys gid mid read =>
      cases e with
      | failed =>
          cases hnext
          exact leaves_nil h (extends_of_eq rfl rfl)
      | success =>
          cases hnext
          exact leaves_nil (h.set hk) (set_extends read)
      | _ => cases hnext

theorem around_leaves {e : Around K} {ks : List (Call K)} (h : Consistent s)
    (haround : around s e = some (s', ks)) : Leaves s s' ks := by
  cases e with
  | prepare r =>
      cases haround
      exact leaves_self h trivial
  | requestKeys gid mode =>
      cases haround
      exact leaves_self h trivial
  | changeKeys gid keys =>
      cases haround
      exact leaves_nil (h.extend (extends_of_eq rfl rfl) h.created (fun _ _ hc => hc) rfl)
        (extends_of_eq rfl rfl)
  | message gid mid update =>
      simp only [around] at haround
      split at haround
      · rename_i hmid
        cases haround
        exact leaves_nil (h.insertMessage hmid update) (insertMessage_extends hmid update)
      · cases haround
  | upload gid version =>
      cases haround
      exact leaves_nil (h.extend (extends_of_eq rfl rfl) h.created (fun _ _ hc => hc) rfl)
        (extends_of_eq rfl rfl)
  | expire key =>
      cases haround
      refine leaves_nil (h.extend (extends_of_eq rfl rfl) h.created ?_ rfl)
        (extends_of_eq rfl rfl)
      intro key' c hc
      dsimp only at hc
      by_cases hkey : key' = key
      · rw [hkey, Function.update_self] at hc
        cases hc
      · rwa [Function.update_of_ne hkey] at hc

/-- The invariant of the calls and the stores -/
structure Inv (p : Pool (World K) (Call K)) : Prop where
  consistent : Consistent p.shared
  calls : ∀ k ∈ p.calls, k.Holds p.shared

/-- The clock is not read in what a step leaves. -/
theorem Leaves.inv {ks rest : List (Call K)} {q : Pool (World K) (Call K)}
    (h : Leaves s s' ks) (hrest : ∀ k ∈ rest, k.Holds s) (hs : q.shared = s'.tick)
    (hcalls : q.calls.Perm (ks ++ rest)) : Inv q := by
  have htick : Extends s' s'.tick := extends_of_eq rfl rfl
  constructor
  · rw [hs]
    exact h.consistent.tick
  · intro k hk
    rw [hs]
    obtain hk | hk := List.mem_append.mp (hcalls.mem_iff.mp hk)
    · exact (h.calls k hk).extend htick
    · exact ((hrest k hk).extend h.extended).extend htick

/-- The condition on the steps of a run -/
def Reached : Pool (World K) (Call K) → Sched Reply (Around K) → Prop :=
  CallSystem.allow (fun p k e => VersionReached p.shared k e) (fun _ _ => True)

instance (p : Pool (World K) (Call K)) (l : Sched Reply (Around K)) : Decidable (Reached p l) :=
  inferInstanceAs (Decidable (CallSystem.allow _ _ p l))

theorem run_inv {p q : Pool (World K) (Call K)} {ls : List (Sched Reply (Around K))} (hp : Inv p)
    (hok : (system F).machine.Meets Reached p ls) (hrun : (system F).machine.run p ls = some q) :
    Inv q := by
  refine (system F).run_invariant Inv ?_ ?_ hp hok hrun
  · intro p q k rest e s ks hinv hperm hcond hnext hs hks
    obtain ⟨⟨s', ks'⟩, hstep, heq⟩ := Option.map_eq_some_iff.mp hnext
    obtain ⟨rfl, rfl⟩ := Prod.mk.inj heq
    have hk : k.Holds p.shared := hinv.calls k (hperm.mem_iff.mpr List.mem_cons_self)
    have hrest : ∀ k' ∈ rest, k'.Holds p.shared := fun k' hk' =>
      hinv.calls k' (hperm.mem_iff.mpr (List.mem_cons_of_mem k hk'))
    exact (next_leaves hinv.consistent hk hcond hstep).inv hrest hs hks
  · intro p e s ks hinv _ hnext
    obtain ⟨⟨s', ks'⟩, hstep, heq⟩ := Option.map_eq_some_iff.mp hnext
    obtain ⟨rfl, rfl⟩ := Prod.mk.inj heq
    exact (around_leaves hinv.consistent hstep).inv hinv.calls rfl List.perm_append_comm

/-- The start of a run: nothing is running, in redis or answered yet. -/
structure Initial (p : Pool (World K) (Call K)) : Prop where
  calls : p.calls = []
  redis : ∀ key, p.shared.redis key = none
  updateRequests : p.shared.updateRequests = []
  responses : p.shared.responses = []

theorem Initial.inv {p : Pool (World K) (Call K)} (h : Initial p) : Inv p where
  consistent :=
    { created := fun m hm => by simp [h.updateRequests] at hm
      redis := fun gid version c hc => by simp [h.redis] at hc
      responses := fun a ha => by simp [h.responses] at ha }
  calls := fun k hk => by simp [h.calls] at hk

/-- The keys of the responses were not read before the messages of their versions were created. -/
def PreparedFresh (s : World K) : Prop :=
  ∀ a ∈ s.responses, ∀ read, a.keys = some read →
    Fresh s a.request.gid a.request.version read.readAt

/-- If `onPrepareKeyUpdateV3` reads keys only for versions that the messages of the group have
reached, the keys it returns for a version are never older than the message of the version. -/
theorem prepared_fresh (F : KeysFormat K) {p q : Pool (World K) (Call K)} (hp : Initial p)
    {ls : List (Sched Reply (Around K))} (hok : (system F).machine.Meets Reached p ls)
    (hrun : (system F).machine.run p ls = some q) : PreparedFresh q.shared := by
  intro a ha read hread
  exact ((run_inv hp.inv hok hrun).consistent.responses a ha read hread).fresh

end Fresh

/-! ## Runs -/

/-- A key as its message -/
abbrev KeyMessage := {b : Bytes // b.length < 2 ^ 32}

def keyMessages : KeysFormat KeyMessage where
  serializeToCodedStream := Subtype.val
  parseFromCodedStream := fun b => if h : b.length < 2 ^ 32 then some ⟨b, h⟩ else none
  parse_serialize := fun k => dif_pos k.2
  byteSize_lt := fun k => k.2

/-- The keys of the devices of `u` and `w` -/
def keyOf (c : UInt8) : KeyMessage := ⟨[10, 1, c], by simp⟩

/-- Group 7, whose members are `u` and `w`, with five messages -/
def twoMembers : Pool (World KeyMessage) (Call KeyMessage) :=
  ⟨{ accounts := fun gid => if gid = 7 then [keyOf 117, keyOf 119] else []
     lastMid := fun _ => 5
     latestVersion := fun _ => some 3 }, []⟩

theorem twoMembers_initial : Initial twoMembers := ⟨rfl, fun _ => rfl, rfl, rfl⟩

/-- A request for version 6 of the group -/
def prepareSix : PrepareRequest := ⟨7, 6, .oneForEach⟩

/-- The request is prepared by call `i` up to the query of the cache. -/
def queried (i : ℕ) : List (Sched Reply (Around KeyMessage)) :=
  [.env (.prepare prepareSix), .call i (.group 3), .call i .success, .call i (.candidate true),
    .call i .success]

/-- The message 6 is created, and then version 6 is prepared. -/
def preparedAfter : List (Sched Reply (Around KeyMessage)) :=
  [.env (.requestKeys 7 .oneForEach), .call 0 (.inserted 6)] ++ queried 1 ++
    [.call 1 .success, .call 1 .success]

theorem prepared_fresh_after : ∃ q, (system keyMessages).machine.run twoMembers preparedAfter =
    some q ∧ q.shared.responses = [⟨prepareSix, 200, some ⟨[keyOf 117, keyOf 119], 7⟩⟩] ∧
      q.shared.updateRequests = [⟨7, 6, 1⟩] ∧ PreparedFresh q.shared := by
  have hview : ((system keyMessages).machine.run twoMembers preparedAfter).map
      (fun q => (q.shared.responses, q.shared.updateRequests)) =
      some ([⟨prepareSix, 200, some ⟨[keyOf 117, keyOf 119], 7⟩⟩], [⟨7, 6, 1⟩]) := by
    decide +kernel
  obtain ⟨q, hrun, heq⟩ := Option.map_eq_some_iff.mp hview
  obtain ⟨hresponses, hrequests⟩ := Prod.mk.inj heq
  have hok : (system keyMessages).machine.Meets Reached twoMembers preparedAfter := by
    decide +kernel
  exact ⟨q, hrun, hresponses, hrequests, prepared_fresh keyMessages twoMembers_initial hok hrun⟩

/-- Version 6 is prepared, `w` leaves, the message 6 is created, and version 6 is prepared again
before the keys are put into redis. -/
def preparedBefore : List (Sched Reply (Around KeyMessage)) :=
  queried 0 ++ [.call 0 .success, .call 0 .success, .env (.changeKeys 7 [keyOf 117]),
    .env (.requestKeys 7 .oneForEach), .call 0 (.inserted 6)] ++ queried 1

/-- A device is given the key of `w`, who left before the message was created. -/
theorem prepared_stale :
    ¬ ∀ (K : Type) (F : KeysFormat K) (p q : Pool (World K) (Call K))
      (ls : List (Sched Reply (Around K))), Initial p →
      (system F).machine.run p ls = some q → PreparedFresh q.shared := by
  intro hclaim
  have hview : ((system keyMessages).machine.run twoMembers preparedBefore).map
      (fun q => (q.shared.responses.head?, q.shared.updateRequests)) =
      some (some ⟨prepareSix, 200, some ⟨[keyOf 117, keyOf 119], 5⟩⟩, [⟨7, 6, 9⟩]) := by
    decide +kernel
  obtain ⟨q, hrun, heq⟩ := Option.map_eq_some_iff.mp hview
  obtain ⟨hhead, hrequests⟩ := Prod.mk.inj heq
  have hfresh := hclaim KeyMessage keyMessages twoMembers q preparedBefore twoMembers_initial hrun
  have hmem : ⟨7, 6, 9⟩ ∈ q.shared.updateRequests := by
    rw [hrequests]
    exact List.mem_singleton_self _
  have hle : 9 ≤ 5 := hfresh _ (List.mem_of_mem_head? hhead) _ rfl _ hmem rfl (by decide)
  omega

end KeysCache

end BcmServer.Group
