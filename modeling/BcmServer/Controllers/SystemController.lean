import BcmServer.Lts.Pool
import BcmServer.Offline.PushNotification
import BcmServer.Store.AccountsDao
import BcmServer.Util.JsonText
import BcmServer.Util.Newest

/-!
# BcmServer.Controllers.SystemController — messages of the system

The system stores a message for all users, or one for each user that can be pushed to. A user
who asks gets, of the messages for him and those for all, the newest of each activity that has
not come to its end. Messages that have, and those that cannot be read, are deleted then. What a
user has got he acknowledges by an id, and the messages for him up to it are deleted.

`messages_answered`: in every order of requests, an answer has one message for each activity, which
is the newest of those that were read, and no message is lost: a message that was stored was
read, unless it was acknowledged, found at its end or unreadable, or there were sixteen newer ones.
-/

namespace BcmServer.Controllers

open Util Lts
open BcmServer.Offline (Account)
open BcmServer.Store (WriteResult)

/-- `SysMsg` -/
structure SysMsg where
  destination : Bytes
  sysmsgid : UInt64
  content : Bytes
deriving DecidableEq, Repr

/-- `SysMsgContent` -/
structure SysMsgContent where
  id : UInt64
  activityId : UInt64
  type : Bytes
  content : Bytes
deriving DecidableEq, Repr

namespace SysMsgContent

/-- `to_json` -/
def toJson (msg : SysMsgContent) : Json :=
  .object [("id", .number msg.id.toNat), ("activity_id", .number msg.activityId.toNat),
    ("type", .string msg.type), ("content", .string msg.content)]

/-- `from_json` -/
def ofJson (j : Json) : Except JsonError SysMsgContent := do
  let id ← j.toNumber Json.getUInt64 lexicalUInt64 "id"
  let activityId ← j.toNumber Json.getUInt64 lexicalUInt64 "activity_id"
  let type ← j.toString "type"
  let content ← j.toString "content"
  .ok ⟨id, activityId, type, content⟩

/-- The comparison of the first `sort`: by activity, and the newest of one first -/
def ActivityOrder : SysMsgContent → SysMsgContent → Prop :=
  NewestFirst (fun msg => msg.activityId.toNat) fun msg => msg.id.toNat

instance (a b : SysMsgContent) : Decidable (ActivityOrder a b) :=
  inferInstanceAs (Decidable (NewestFirst _ _ a b))

/-- The `sort`, `unique` and `sort` of `getSystemMsgs`, for messages with different ids -/
def newest (toSendMsgs : List SysMsgContent) : List SysMsgContent :=
  (unique (fun msg => msg.activityId.toNat) (toSendMsgs.insertionSort ActivityOrder)).insertionSort
    fun a b => a.id.toNat ≤ b.id.toNat

end SysMsgContent

/-- The destination of messages for all -/
def kAll : Bytes := ascii ['a', 'l', 'l']

def kMaxSysMsgSize : ℕ := 16

/-- `dao::SysMsgs` over a store -/
structure SysMsgs (σ : Type) where
  holds : σ → SysMsg → Prop
  get : σ → Bytes → List SysMsg
  del : σ → Bytes → UInt64 → σ
  delBatch : σ → Bytes → UInt64 → σ
  insert : σ → SysMsg → σ

/-- What is relied on: reading gives sixteen messages at most, and leaves out older ones only. -/
structure SysMsgs.Lawful {σ : Type} (dao : SysMsgs σ) : Prop where
  get : ∀ s d m, m ∈ dao.get s d → dao.holds s m ∧ m.destination = d
  nodup : ∀ s d, (dao.get s d).Nodup
  newest : ∀ s m, dao.holds s m → m ∈ dao.get s m.destination ∨
    (dao.get s m.destination).length = kMaxSysMsgSize ∧
      ∀ m' ∈ dao.get s m.destination, m.sysmsgid ≤ m'.sysmsgid
  del : ∀ s d id m, dao.holds (dao.del s d id) m ↔
    dao.holds s m ∧ ¬ (m.destination = d ∧ m.sysmsgid = id)
  delBatch : ∀ s d maxMid m, dao.holds (dao.delBatch s d maxMid) m ↔
    dao.holds s m ∧ ¬ (m.destination = d ∧ m.sysmsgid ≤ maxMid)
  insert : ∀ s m m', dao.holds (dao.insert s m) m' ↔ m' = m ∨ dao.holds s m'

/-- What is made of a message that was read -/
inductive Judged where
  | send (msg : SysMsgContent)
  | skip
  | delete
deriving DecidableEq, Repr

/-- The loop of `getSystemMsgs` for one message: one that does not say when it ends is not sent,
but it stays. -/
def SysMsg.judge (parse : Bytes → Except JsonError Json) (msg : SysMsg) (nowInSec : Int64) :
    Judged :=
  match parse msg.content >>= SysMsgContent.ofJson with
  | .error _ => .delete
  | .ok sysMsgContent =>
      match parse sysMsgContent.content with
      | .error _ => .delete
      | .ok content =>
          match content.find "endtime" with
          | some (.number endtime) =>
              if 0 ≤ endtime then
                if Int64.ofInt endtime ≤ nowInSec then .delete else .send sysMsgContent
              else .skip
          | _ => .skip

/-- The message for a destination, as `sendSystemOfflinePush` stores it -/
def SysMsgContent.row (dump : Json → Bytes) (msg : SysMsgContent) (destination : Bytes) : SysMsg :=
  ⟨destination, msg.id, dump msg.toJson.mapOrder⟩

/-! ## The requests -/

/-- An acknowledgement that was carried out, and what had been stored then -/
structure Acked where
  uid : Bytes
  mid : UInt64
  pushed : List SysMsg

/-- What had been stored and acknowledged when a request read -/
structure Before where
  pushed : List SysMsg
  acked : List Acked

/-- What a request has read; the messages for all are none if reading them failed. -/
structure Reading where
  uid : Bytes
  before : Before
  own : List SysMsg
  all : Option (List SysMsg)

def Reading.msgs (r : Reading) : List SysMsg := r.own ++ r.all.getD []

/-- An answer, and the messages that were read with the times at which they were looked at -/
structure SysAnswer where
  reading : Reading
  looked : List (SysMsg × Int64)
  msgs : List SysMsgContent

/-- The store, the ids of the messages that the system had stored, the messages that were, the
acknowledgements, the messages that were found to be deleted, and the answers -/
structure SystemState (σ : Type) where
  stored : σ
  ids : List UInt64 := []
  pushed : List SysMsg := []
  acked : List Acked := []
  found : List SysMsg := []
  answers : List SysAnswer := []

/-- A request before its next call to the store -/
inductive SystemCall where
  | insert (msgs : List SysMsg)
  | own (uid : Bytes)
  | all (uid : Bytes) (before : Before) (own : List SysMsg)
  | each (r : Reading) (looked : List (SysMsg × Int64)) (msgs : List SysMsg)
  | ack (uid : Bytes) (mid : UInt64)

/-- How a call to the store ends, and the time -/
structure SystemEffect where
  result : WriteResult := .done
  nowInSec : Int64 := 0

/-- A request comes in; for a message to single users, with the accounts that were found. -/
inductive SystemEvent where
  | push (type : Int32) (msg : SysMsgContent) (accounts : List Account) (nowInMilli : Int64)
  | get (uid : Bytes)
  | ack (uid mid : Bytes)

/-- `InnerSystemController` and `SystemController` -/
structure SystemController where
  openService : Bool
  masterId : UInt32

namespace SystemController

def UNICAST : Int32 := 1
def BROADCAST : Int32 := 2

variable (c : SystemController) {σ : Type} (dao : SysMsgs σ) (dump : Json → Bytes)
  (parse : Bytes → Except JsonError Json)

/-- The messages that `sendSystemOfflinePush` stores for the accounts: those whose master device
can be pushed to -/
def unicast (msg : SysMsgContent) (accounts : List Account) (nowInMilli : Int64) : List SysMsg :=
  (accounts.filter fun account =>
    (account.getDevice c.masterId).any fun device => device.isDevicePushable nowInMilli).map
      fun account => msg.row dump account.uid

/-- `toSendMsgs` of `getSystemMsgs` -/
def toSendMsgs (looked : List (SysMsg × Int64)) : List SysMsgContent :=
  looked.filterMap fun l =>
    match l.1.judge parse l.2 with
    | .send msg => some msg
    | _ => none

/-- The next call of a request to the store. Requests that fail are not recorded. -/
def next (s : SystemState σ) (e : SystemEffect) : SystemCall → SystemState σ × List SystemCall
  | .insert [] => (s, [])
  | .insert (msg :: msgs) =>
      -- the loop goes on when a message cannot be stored
      if e.result = .failed then (s, [.insert msgs])
      else ({ s with stored := dao.insert s.stored msg, pushed := msg :: s.pushed }, [.insert msgs])
  | .own uid =>
      if e.result = .done then (s, [.all uid ⟨s.pushed, s.acked⟩ (dao.get s.stored uid)])
      else (s, [])
  | .all uid before own =>
      let all := if e.result = .done then some (dao.get s.stored kAll) else none
      let r : Reading := ⟨uid, before, own, all⟩
      (s, [.each r [] r.msgs])
  | .each r looked (msg :: msgs) =>
      let looked := looked ++ [(msg, e.nowInSec)]
      if msg.judge parse e.nowInSec = .delete then
        let stored :=
          if e.result = .failed then s.stored else dao.del s.stored msg.destination msg.sysmsgid
        ({ s with stored := stored, found := msg :: s.found }, [.each r looked msgs])
      else (s, [.each r looked msgs])
  | .each r looked [] =>
      let a : SysAnswer := ⟨r, looked, SysMsgContent.newest (toSendMsgs parse looked)⟩
      ({ s with answers := a :: s.answers }, [])
  | .ack uid mid =>
      if e.result = .failed then (s, [])
      else ({ s with
        stored := dao.delBatch s.stored uid mid
        acked := ⟨uid, mid, s.pushed⟩ :: s.acked }, [])

/-- A request comes in: `sendSystemOfflinePush`, `getSystemMsgs` and `ackSystemMsgs` -/
def receive (s : SystemState σ) : SystemEvent → SystemState σ × List SystemCall
  | .push type msg accounts nowInMilli =>
      if !c.openService then (s, [])
      else if type = BROADCAST then
        ({ s with ids := msg.id :: s.ids }, [.insert [msg.row dump kAll]])
      else if type = UNICAST then
        ({ s with ids := msg.id :: s.ids }, [.insert (c.unicast dump msg accounts nowInMilli)])
      else (s, [])
  | .get uid => (s, [.own uid])
  | .ack uid mid =>
      match stoll mid with
      | some mid => (s, [.ack uid mid.toUInt64])
      | none => (s, [])

/-- All requests, their calls in any order -/
def system : CallSystem (SystemState σ) SystemCall SystemEffect SystemEvent where
  next s call e := some (next dao parse s e call)
  env p event := some (c.receive dump p.shared event)

/-- No request has come in yet. -/
def start (stored : σ) : Pool (SystemState σ) SystemCall := ⟨{ stored := stored }, []⟩

end SystemController

/-! ## One answer -/

namespace SysMsgContent

variable {toSendMsgs : List SysMsgContent}

theorem newest_subset {msg : SysMsgContent} (h : msg ∈ newest toSendMsgs) : msg ∈ toSendMsgs := by
  rw [newest, List.mem_insertionSort] at h
  exact (List.mem_insertionSort ActivityOrder).mp ((unique_sublist _ _).subset h)

theorem pairwise_activityOrder (toSendMsgs : List SysMsgContent) :
    (toSendMsgs.insertionSort ActivityOrder).Pairwise
      (NewestFirst (fun msg => msg.activityId.toNat) fun msg => msg.id.toNat) :=
  List.pairwise_insertionSort (NewestFirst _ _) toSendMsgs

/-- Of each activity the newest message is left. -/
theorem exists_newest {msg : SysMsgContent} (h : msg ∈ toSendMsgs) :
    ∃ msg' ∈ newest toSendMsgs, msg'.activityId = msg.activityId ∧ msg.id ≤ msg'.id := by
  have hmem := (List.mem_insertionSort ActivityOrder).mpr h
  rcases exists_unique_newest (pairwise_activityOrder toSendMsgs) hmem with ⟨msg', h', hkey, hle⟩
  refine ⟨msg', ?_, UInt64.toNat_inj.mp hkey, UInt64.le_iff_toNat_le.mpr hle⟩
  rw [newest, List.mem_insertionSort]
  exact h'

theorem nodup_activities (toSendMsgs : List SysMsgContent) :
    ((newest toSendMsgs).map SysMsgContent.activityId).Nodup := by
  have hperm := List.perm_insertionSort (fun a b : SysMsgContent => a.id.toNat ≤ b.id.toNat)
    (unique (fun msg => msg.activityId.toNat) (toSendMsgs.insertionSort ActivityOrder))
  rw [newest, (hperm.map _).nodup_iff, List.Nodup, List.pairwise_map]
  refine (pairwise_unique (pairwise_activityOrder toSendMsgs)).imp ?_
  intro a b hlt heq
  rw [heq] at hlt
  exact Nat.lt_irrefl _ hlt

theorem ascending_newest (hids : (toSendMsgs.map SysMsgContent.id).Nodup) :
    (newest toSendMsgs).Pairwise fun a b => a.id < b.id := by
  have hperm := (List.perm_insertionSort (fun a b : SysMsgContent => a.id.toNat ≤ b.id.toNat)
    (unique (fun msg => msg.activityId.toNat) (toSendMsgs.insertionSort ActivityOrder)))
  have hsorted : (newest toSendMsgs).Pairwise fun a b => a.id.toNat ≤ b.id.toNat :=
    List.pairwise_insertionSort _ _
  have hnodup : ((newest toSendMsgs).map SysMsgContent.id).Nodup := by
    rw [newest, (hperm.map _).nodup_iff]
    have hsorted := (List.perm_insertionSort ActivityOrder toSendMsgs).map SysMsgContent.id
    exact (hsorted.nodup_iff.mpr hids).sublist ((unique_sublist _ _).map _)
  have hne := List.pairwise_map.mp hnodup
  refine (hsorted.and hne).imp ?_
  intro a b h
  have hnat : a.id.toNat ≠ b.id.toNat := fun heq => h.2 (UInt64.toNat_inj.mp heq)
  rw [UInt64.lt_iff_toNat_lt]
  omega

end SysMsgContent

/-! ## What is stored and read -/

/-- The strings are UTF-8. -/
structure SysMsgContent.Utf8Strings (msg : SysMsgContent) : Prop where
  type : Utf8 msg.type
  content : Utf8 msg.content

section Stored

variable {dump : Json → Bytes} {parse : Bytes → Except JsonError Json}

theorem SysMsgContent.ofJson_row (hjson : JsonRoundTrips dump parse) {msg : SysMsgContent}
    (h : msg.Utf8Strings) (destination : Bytes) :
    (parse (msg.row dump destination).content >>= ofJson) = .ok msg := by
  have horder : msg.toJson.mapOrder = .object [("activity_id", .number msg.activityId.toNat),
      ("content", .string msg.content), ("id", .number msg.id.toNat), ("type", .string msg.type)] := by
    simp [Json.mapOrder, toJson, List.insertionSort, List.orderedInsert]
  have hnumber : ∀ n : UInt64, (Json.number n.toNat).Storable := by
    intro n
    have hlt : n.toNat < 2 ^ 64 := n.toNat_lt
    exact .number (by omega)
  have hkeys : ["activity_id", "content", "id", "type"].Pairwise (· < ·) := by decide
  have hstorable : msg.toJson.mapOrder.Storable := by
    rw [horder]
    refine .of_keys hkeys ?_
    simp only [List.forall_mem_cons, List.not_mem_nil, false_imp_iff, implies_true, and_true]
    exact ⟨hnumber _, .string h.content, hnumber _, .string h.type⟩
  rw [row, hjson _ hstorable, horder]
  simp [ofJson, Json.toNumber, Json.toString, Json.at_, List.lookup_cons, Json.getUInt64,
    Json.integer, Json.getString, bind, Except.bind, Functor.map, Except.map, ofInt_toNat_uInt64]

/-- What is sent of a message is what is read of it. -/
theorem SysMsg.ofJson_of_send {m : SysMsg} {now : Int64} {msg : SysMsgContent}
    (h : m.judge parse now = .send msg) : (parse m.content >>= SysMsgContent.ofJson) = .ok msg := by
  unfold SysMsg.judge at h
  cases hread : parse m.content >>= SysMsgContent.ofJson with
  | error e => rw [hread] at h; cases h
  | ok msg' =>
      rw [hread] at h
      simp only at h
      split at h
      · cases h
      · split at h
        · split_ifs at h
          cases h
          rfl
        · cases h

/-- A message as the system stores it -/
def SysMsg.Printed (dump : Json → Bytes) (m : SysMsg) : Prop :=
  ∃ msg : SysMsgContent, msg.Utf8Strings ∧ m = msg.row dump m.destination

theorem SysMsg.Printed.id_of_send (hjson : JsonRoundTrips dump parse) {m : SysMsg}
    (hm : m.Printed dump) {now : Int64} {msg : SysMsgContent} (h : m.judge parse now = .send msg) :
    msg.id = m.sysmsgid := by
  rcases hm with ⟨msg', hmsg', hrow⟩
  have hread := SysMsg.ofJson_of_send h
  rw [hrow, SysMsgContent.ofJson_row hjson hmsg'] at hread
  rw [hrow, ← Except.ok.inj hread]
  rfl

end Stored

/-! ## The invariant -/

/-- The messages that a call will store -/
def SystemCall.inserts : SystemCall → List SysMsg
  | .insert msgs => msgs
  | _ => []

/-- Messages with one id differ in their destinations alone, and are all for single users or
all for everyone. -/
structure Distinct (dump : Json → Bytes) (ids : List UInt64) (msgs : List SysMsg) : Prop where
  nodup : msgs.Nodup
  same : ∀ a ∈ msgs, ∀ b ∈ msgs, a.sysmsgid = b.sysmsgid →
    a.content = b.content ∧ (a.destination = kAll ↔ b.destination = kAll)
  ids : ∀ a ∈ msgs, a.sysmsgid ∈ ids
  printed : ∀ a ∈ msgs, a.Printed dump

/-- What was stored is there, unless there is a reason. -/
structure Kept {σ : Type} (dao : SysMsgs σ) (parse : Bytes → Except JsonError Json)
    (s : SystemState σ) : Prop where
  held : ∀ m, dao.holds s.stored m → m ∈ s.pushed
  kept : ∀ m ∈ s.pushed, dao.holds s.stored m ∨
    (∃ ack ∈ s.acked, ack.uid = m.destination ∧ m.sysmsgid ≤ ack.mid) ∨ m ∈ s.found
  gone : ∀ ack ∈ s.acked, ∀ m ∈ ack.pushed, m.destination = ack.uid → m.sysmsgid ≤ ack.mid →
    ¬ dao.holds s.stored m
  acked : ∀ ack ∈ s.acked, ack.pushed ⊆ s.pushed
  found : ∀ m ∈ s.found, ∃ now, m.judge parse now = .delete

section Right

variable {σ : Type}

/-- What was read for a destination: nothing that had been acknowledged, and everything that had
been stored, unless there is a reason. -/
structure Reads (s : SystemState σ) (before : Before) (destination : Bytes) (msgs : List SysMsg) :
    Prop where
  nodup : msgs.Nodup
  pushed : ∀ m ∈ msgs, m ∈ s.pushed ∧ m.destination = destination
  unacked : ∀ ack ∈ before.acked, ack.uid = destination → ∀ m ∈ msgs, m ∈ ack.pushed →
    ack.mid < m.sysmsgid
  complete : ∀ m ∈ before.pushed, m.destination = destination → m ∈ msgs ∨
    (∃ ack ∈ s.acked, ack.uid = destination ∧ m.sysmsgid ≤ ack.mid) ∨ m ∈ s.found ∨
    (msgs.length = kMaxSysMsgSize ∧ ∀ m' ∈ msgs, m.sysmsgid ≤ m'.sysmsgid)

/-- What a request has read -/
structure Reading.Sound (s : SystemState σ) (r : Reading) : Prop where
  uid : r.uid ≠ kAll
  own : Reads s r.before r.uid r.own
  all : ∀ msgs ∈ r.all, Reads s r.before kAll msgs

/-- An answer has, of what was read and is to be sent, the newest message of each activity. -/
structure SysAnswer.Right (parse : Bytes → Except JsonError Json) (s : SystemState σ)
    (a : SysAnswer) : Prop where
  reading : a.reading.Sound s
  looked : a.looked.map Prod.fst = a.reading.msgs
  ascending : a.msgs.Pairwise fun m m' => m.id < m'.id
  activities : (a.msgs.map SysMsgContent.activityId).Nodup
  sent : ∀ msg ∈ a.msgs, ∃ l ∈ a.looked, l.1.judge parse l.2 = .send msg
  newest : ∀ l ∈ a.looked, ∀ msg, l.1.judge parse l.2 = .send msg →
    ∃ msg' ∈ a.msgs, msg'.activityId = msg.activityId ∧ msg.id ≤ msg'.id

/-- What a call relies on -/
def SystemCall.Sound (s : SystemState σ) : SystemCall → Prop
  | .insert _ => True
  | .own uid => uid ≠ kAll
  | .all uid before msgs => uid ≠ kAll ∧ before.pushed ⊆ s.pushed ∧ before.acked ⊆ s.acked ∧
      Reads s before uid msgs
  | .each r looked msgs => r.Sound s ∧ looked.map Prod.fst ++ msgs = r.msgs
  | .ack _ _ => True

/-- The histories go on. -/
structure Grows (s s' : SystemState σ) : Prop where
  pushed : s.pushed ⊆ s'.pushed
  acked : s.acked ⊆ s'.acked
  found : s.found ⊆ s'.found

variable {s s' : SystemState σ}

theorem Reads.grow {before : Before} {d : Bytes} {msgs : List SysMsg} (h : Reads s before d msgs)
    (hs : Grows s s') : Reads s' before d msgs where
  nodup := h.nodup
  pushed m hm := ⟨hs.pushed (h.pushed m hm).1, (h.pushed m hm).2⟩
  unacked := h.unacked
  complete m hm hd := by
    rcases h.complete m hm hd with hread | ⟨ack, hack, hmid⟩ | hfound | hcrowded
    · exact Or.inl hread
    · exact Or.inr (Or.inl ⟨ack, hs.acked hack, hmid⟩)
    · exact Or.inr (Or.inr (Or.inl (hs.found hfound)))
    · exact Or.inr (Or.inr (Or.inr hcrowded))

theorem Reading.Sound.grow {r : Reading} (h : r.Sound s) (hs : Grows s s') : r.Sound s' :=
  ⟨h.uid, h.own.grow hs, fun msgs hmsgs => (h.all msgs hmsgs).grow hs⟩

theorem SysAnswer.Right.grow {parse : Bytes → Except JsonError Json} {a : SysAnswer}
    (h : a.Right parse s) (hs : Grows s s') : a.Right parse s' :=
  { h with reading := h.reading.grow hs }

theorem SystemCall.Sound.grow {call : SystemCall} (h : call.Sound s) (hs : Grows s s') :
    call.Sound s' := by
  cases call with
  | insert msgs => trivial
  | own uid => exact h
  | all uid before msgs =>
      exact ⟨h.1, List.Subset.trans h.2.1 hs.pushed, List.Subset.trans h.2.2.1 hs.acked,
        h.2.2.2.grow hs⟩
  | each r looked msgs => exact ⟨h.1.grow hs, h.2⟩
  | ack uid mid => trivial

end Right

section Dao

variable {σ : Type} {dao : SysMsgs σ} {dump : Json → Bytes} {parse : Bytes → Except JsonError Json}
  {s : SystemState σ}

/-- What the store gives for a destination -/
theorem reads_get (hdao : dao.Lawful) (h : Kept dao parse s) {before : Before}
    (hpushed : before.pushed ⊆ s.pushed) (hacked : before.acked ⊆ s.acked) (d : Bytes) :
    Reads s before d (dao.get s.stored d) where
  nodup := hdao.nodup s.stored d
  pushed m hm := ⟨h.held m (hdao.get s.stored d m hm).1, (hdao.get s.stored d m hm).2⟩
  unacked ack hack huid m hm hold := by
    rcases hdao.get s.stored d m hm with ⟨hholds, hd⟩
    by_contra hle
    rw [UInt64.not_lt] at hle
    exact h.gone ack (hacked hack) m hold (hd.trans huid.symm) hle hholds
  complete m hm hd := by
    rcases h.kept m (hpushed hm) with hholds | ⟨ack, hack, huid, hmid⟩ | hfound
    · rcases hdao.newest s.stored m hholds with hread | hcrowded
      · rw [hd] at hread
        exact Or.inl hread
      · rw [hd] at hcrowded
        exact Or.inr (Or.inr (Or.inr hcrowded))
    · exact Or.inr (Or.inl ⟨ack, hack, huid.trans hd, hmid⟩)
    · exact Or.inr (Or.inr (Or.inl hfound))

/-- A message that is new is stored. -/
theorem Kept.insert (h : Kept dao parse s) (hdao : dao.Lawful) {m : SysMsg} (hnew : m ∉ s.pushed) :
    Kept dao parse { s with stored := dao.insert s.stored m, pushed := m :: s.pushed } where
  held m' hm' := by
    rcases (hdao.insert s.stored m m').mp hm' with rfl | hm'
    · exact List.mem_cons_self
    · exact List.mem_cons_of_mem _ (h.held m' hm')
  kept m' hm' := by
    rcases List.mem_cons.mp hm' with rfl | hm'
    · exact Or.inl ((hdao.insert s.stored m' m').mpr (Or.inl rfl))
    · exact (h.kept m' hm').imp_left fun hholds => (hdao.insert s.stored m m').mpr (Or.inr hholds)
  gone ack hack m' hm' huid hmid hholds := by
    rcases (hdao.insert s.stored m m').mp hholds with rfl | hholds
    · exact hnew (h.acked ack hack hm')
    · exact h.gone ack hack m' hm' huid hmid hholds
  acked ack hack m' hm' := List.mem_cons_of_mem _ (h.acked ack hack hm')
  found := h.found

/-- A message that is at its end, or unreadable, is deleted or stays. -/
theorem Kept.del (h : Kept dao parse s) (hdao : dao.Lawful) {m : SysMsg} {now : Int64}
    (hdelete : m.judge parse now = .delete)
    (hsame : ∀ m' ∈ s.pushed, m'.destination = m.destination → m'.sysmsgid = m.sysmsgid → m' = m)
    {stored : σ} (hstored : stored = s.stored ∨
      stored = dao.del s.stored m.destination m.sysmsgid) :
    Kept dao parse { s with stored := stored, found := m :: s.found } := by
  have hfewer : ∀ m', dao.holds stored m' → dao.holds s.stored m' := by
    intro m' hm'
    rcases hstored with rfl | rfl
    · exact hm'
    · exact ((hdao.del _ _ _ m').mp hm').1
  refine ⟨fun m' hm' => h.held m' (hfewer m' hm'), ?_, ?_, h.acked, ?_⟩
  · intro m' hm'
    rcases h.kept m' hm' with hholds | hacked | hfound
    · rcases hstored with rfl | rfl
      · exact Or.inl hholds
      · rcases eq_or_ne m' m with rfl | hne
        · exact Or.inr (Or.inr List.mem_cons_self)
        · refine Or.inl ((hdao.del _ _ _ m').mpr ⟨hholds, ?_⟩)
          rintro ⟨hd, hid⟩
          exact hne (hsame m' hm' hd hid)
    · exact Or.inr (Or.inl hacked)
    · exact Or.inr (Or.inr (List.mem_cons_of_mem _ hfound))
  · intro ack hack m' hm' huid hmid hholds
    exact h.gone ack hack m' hm' huid hmid (hfewer m' hholds)
  · rw [List.forall_mem_cons]
    exact ⟨⟨now, hdelete⟩, h.found⟩

/-- An acknowledgement is carried out. -/
theorem Kept.ack (h : Kept dao parse s) (hdao : dao.Lawful) (uid : Bytes) (mid : UInt64) :
    Kept dao parse { s with
      stored := dao.delBatch s.stored uid mid, acked := ⟨uid, mid, s.pushed⟩ :: s.acked } where
  held m hm := h.held m ((hdao.delBatch _ _ _ m).mp hm).1
  kept m hm := by
    rcases h.kept m hm with hholds | ⟨ack, hack, hmid⟩ | hfound
    · by_cases hdeleted : m.destination = uid ∧ m.sysmsgid ≤ mid
      · exact Or.inr (Or.inl ⟨_, List.mem_cons_self, hdeleted.1.symm, hdeleted.2⟩)
      · exact Or.inl ((hdao.delBatch _ _ _ m).mpr ⟨hholds, hdeleted⟩)
    · exact Or.inr (Or.inl ⟨ack, List.mem_cons_of_mem _ hack, hmid⟩)
    · exact Or.inr (Or.inr hfound)
  gone := by
    rw [List.forall_mem_cons]
    refine ⟨?_, ?_⟩
    · intro m _ huid hmid hholds
      exact ((hdao.delBatch _ _ _ m).mp hholds).2 ⟨huid, hmid⟩
    · intro ack hack m hm huid hmid hholds
      exact h.gone ack hack m hm huid hmid ((hdao.delBatch _ _ _ m).mp hholds).1
  acked := by
    rw [List.forall_mem_cons]
    exact ⟨List.Subset.refl _, h.acked⟩
  found := h.found

end Dao

/-! ## Answers -/

section Answers

variable {σ : Type} {dump : Json → Bytes} {parse : Bytes → Except JsonError Json}
  {ids : List UInt64} {s : SystemState σ}

/-- Two messages for one destination that have the same id are the same. -/
theorem Distinct.eq_of_id {msgs : List SysMsg} (h : Distinct dump ids msgs) {a b : SysMsg}
    (ha : a ∈ msgs) (hb : b ∈ msgs) (hd : a.destination = b.destination)
    (hid : a.sysmsgid = b.sysmsgid) : a = b := by
  have hcontent := (h.same a ha b hb hid).1
  cases a
  cases b
  simp_all

theorem Distinct.subperm {msgs msgs' : List SysMsg} (h : Distinct dump ids msgs)
    (hsub : msgs'.Subperm msgs) : Distinct dump ids msgs' := by
  rcases hsub with ⟨l, hperm, hl⟩
  have hmem : ∀ m ∈ msgs', m ∈ msgs := fun m hm => hl.subset (hperm.mem_iff.mpr hm)
  exact ⟨hperm.nodup_iff.mp (h.nodup.sublist hl),
    fun a ha b hb => h.same a (hmem a ha) b (hmem b hb), fun a ha => h.ids a (hmem a ha),
    fun a ha => h.printed a (hmem a ha)⟩

/-- The messages of a request are new, and for different users or for all. -/
theorem Distinct.append {msgs : List SysMsg} (h : Distinct dump ids msgs)
    {msg : SysMsgContent} (hmsg : msg.Utf8Strings) (hid : msg.id ∉ ids) {destinations : List Bytes}
    (hnodup : destinations.Nodup)
    (hall : ∀ d ∈ destinations, ∀ d' ∈ destinations, (d = kAll ↔ d' = kAll)) :
    Distinct dump (msg.id :: ids) (msgs ++ destinations.map fun d => msg.row dump d) where
  nodup := by
    rw [List.nodup_append]
    refine ⟨h.nodup, ?_, ?_⟩
    · refine List.Nodup.map ?_ hnodup
      intro d d' heq
      exact congrArg SysMsg.destination heq
    · intro a ha b hb heq
      rcases List.mem_map.mp hb with ⟨d, -, rfl⟩
      have hids := h.ids a ha
      rw [heq] at hids
      exact hid hids
  same := by
    have hnew : ∀ a ∈ msgs, ∀ d : Bytes, a.sysmsgid ≠ (msg.row dump d).sysmsgid := by
      intro a ha d heq
      have hids := h.ids a ha
      rw [heq] at hids
      exact hid hids
    intro a ha b hb heq
    rcases List.mem_append.mp ha with ha | ha
    · rcases List.mem_append.mp hb with hb | hb
      · exact h.same a ha b hb heq
      · rcases List.mem_map.mp hb with ⟨d, -, rfl⟩
        exact absurd heq (hnew a ha d)
    · rcases List.mem_map.mp ha with ⟨d, hd, rfl⟩
      rcases List.mem_append.mp hb with hb | hb
      · exact absurd heq.symm (hnew b hb d)
      · rcases List.mem_map.mp hb with ⟨d', hd', rfl⟩
        exact ⟨rfl, hall d hd d' hd'⟩
  ids a ha := by
    rcases List.mem_append.mp ha with ha | ha
    · exact List.mem_cons_of_mem _ (h.ids a ha)
    · rcases List.mem_map.mp ha with ⟨d, -, rfl⟩
      exact List.mem_cons_self
  printed a ha := by
    rcases List.mem_append.mp ha with ha | ha
    · exact h.printed a ha
    · rcases List.mem_map.mp ha with ⟨d, -, rfl⟩
      exact ⟨msg, hmsg, rfl⟩

/-- The messages for a destination have different ids. -/
theorem nodup_ids {msgs rows : List SysMsg} (h : Distinct dump ids msgs) {d : Bytes}
    (hrows : ∀ m ∈ rows, m ∈ msgs ∧ m.destination = d) (hnodup : rows.Nodup) :
    (rows.map SysMsg.sysmsgid).Nodup := by
  refine List.Nodup.map_on ?_ hnodup
  intro a ha b hb hid
  exact h.eq_of_id (hrows a ha).1 (hrows b hb).1 ((hrows a ha).2.trans (hrows b hb).2.symm) hid

theorem Reading.Sound.pushed {r : Reading} (hr : r.Sound s) {m : SysMsg} (hm : m ∈ r.msgs) :
    m ∈ s.pushed := by
  rcases List.mem_append.mp hm with hm | hm
  · exact (hr.own.pushed m hm).1
  · cases hall : r.all with
    | none =>
        rw [hall] at hm
        cases hm
    | some all =>
        rw [hall] at hm
        exact ((hr.all all hall).pushed m hm).1

/-- The messages that a request has read have different ids. -/
theorem Reading.Sound.nodup_ids {r : Reading} (hr : r.Sound s) (h : Distinct dump ids s.pushed) :
    (r.msgs.map SysMsg.sysmsgid).Nodup := by
  have hown := Controllers.nodup_ids h hr.own.pushed hr.own.nodup
  cases hall : r.all with
  | none =>
      rw [Reading.msgs, hall, Option.getD_none, List.append_nil]
      exact hown
  | some all =>
      have hreads := hr.all all hall
      rw [Reading.msgs, hall, Option.getD_some, List.map_append, List.nodup_append]
      refine ⟨hown, Controllers.nodup_ids h hreads.pushed hreads.nodup, ?_⟩
      intro a ha b hb heq
      rcases List.mem_map.mp ha with ⟨m, hm, rfl⟩
      rcases List.mem_map.mp hb with ⟨m', hm', hid⟩
      rcases hr.own.pushed m hm with ⟨hpushed, huid⟩
      rcases hreads.pushed m' hm' with ⟨hpushed', hd⟩
      -- a message for all has no id of one for a user
      have hiff := (h.same m hpushed m' hpushed' (heq.trans hid.symm)).2
      exact hr.uid (huid.symm.trans (hiff.mpr hd))

theorem sublist_toSendMsgs (hjson : JsonRoundTrips dump parse) {looked : List (SysMsg × Int64)}
    (h : ∀ l ∈ looked, l.1.Printed dump) :
    ((SystemController.toSendMsgs parse looked).map SysMsgContent.id).Sublist
      ((looked.map Prod.fst).map SysMsg.sysmsgid) := by
  induction looked with
  | nil => exact List.Sublist.refl _
  | cons l looked ih =>
      rw [List.forall_mem_cons] at h
      have hrest := ih h.2
      rw [SystemController.toSendMsgs, List.filterMap_cons]
      cases hjudge : l.1.judge parse l.2 with
      | send msg =>
          simp only [List.map_cons]
          rw [h.1.id_of_send hjson hjudge]
          exact hrest.cons_cons _
      | skip => exact hrest.cons _
      | delete => exact hrest.cons _

theorem mem_toSendMsgs {looked : List (SysMsg × Int64)} {msg : SysMsgContent} :
    msg ∈ SystemController.toSendMsgs parse looked ↔
      ∃ l ∈ looked, l.1.judge parse l.2 = .send msg := by
  rw [SystemController.toSendMsgs, List.mem_filterMap]
  refine exists_congr fun l => and_congr_right fun _ => ?_
  cases l.1.judge parse l.2 <;> simp

/-- What is answered when all messages that were read have been looked at -/
theorem right_newest (hjson : JsonRoundTrips dump parse) {r : Reading} (hr : r.Sound s)
    (h : Distinct dump ids s.pushed) {looked : List (SysMsg × Int64)}
    (hlooked : looked.map Prod.fst = r.msgs) :
    SysAnswer.Right parse s
      ⟨r, looked, SysMsgContent.newest (SystemController.toSendMsgs parse looked)⟩ where
  reading := hr
  looked := hlooked
  ascending := by
    have hprinted : ∀ l ∈ looked, l.1.Printed dump := by
      intro l hl
      have hmem := List.mem_map_of_mem (f := Prod.fst) hl
      rw [hlooked] at hmem
      exact h.printed l.1 (hr.pushed hmem)
    refine SysMsgContent.ascending_newest ?_
    have hnodup := hr.nodup_ids h
    rw [← hlooked] at hnodup
    exact hnodup.sublist (sublist_toSendMsgs hjson hprinted)
  activities := SysMsgContent.nodup_activities _
  sent msg hmsg := mem_toSendMsgs.mp (SysMsgContent.newest_subset hmsg)
  newest l hl msg hmsg := SysMsgContent.exists_newest (mem_toSendMsgs.mpr ⟨l, hl, hmsg⟩)

end Answers

/-! ## Runs -/

namespace SystemController

variable {c : SystemController} {σ : Type} {dao : SysMsgs σ} {dump : Json → Bytes}
  {parse : Bytes → Except JsonError Json}

/-- The invariant of the runs -/
structure Inv (dao : SysMsgs σ) (dump : Json → Bytes) (parse : Bytes → Except JsonError Json)
    (p : Pool (SystemState σ) SystemCall) : Prop where
  distinct : Distinct dump p.shared.ids (p.shared.pushed ++ p.calls.flatMap SystemCall.inserts)
  kept : Kept dao parse p.shared
  calls : ∀ k ∈ p.calls, k.Sound p.shared
  answers : ∀ a ∈ p.shared.answers, a.Right parse p.shared

theorem Inv.distinct_pushed {p : Pool (SystemState σ) SystemCall} (h : Inv dao dump parse p) :
    Distinct dump p.shared.ids p.shared.pushed :=
  h.distinct.subperm (List.sublist_append_left _ _).subperm

/-- What is to be shown of the next call of a request -/
theorem Inv.advance {p q : Pool (SystemState σ) SystemCall} (h : Inv dao dump parse p)
    {k : SystemCall} {rest ks : List SystemCall} (hperm : p.calls.Perm (k :: rest))
    (hcalls : q.calls.Perm (ks ++ rest)) (hgrow : Grows p.shared q.shared)
    (hids : q.shared.ids = p.shared.ids)
    (hinserts : (q.shared.pushed ++ ks.flatMap SystemCall.inserts).Subperm
      (p.shared.pushed ++ k.inserts))
    (hkept : Kept dao parse q.shared) (hks : ∀ k' ∈ ks, k'.Sound q.shared)
    (hanswers : ∀ a ∈ q.shared.answers, a ∈ p.shared.answers ∨ a.Right parse q.shared) :
    Inv dao dump parse q where
  distinct := by
    have hp : (p.calls.flatMap SystemCall.inserts).Perm
        (k.inserts ++ rest.flatMap SystemCall.inserts) := hperm.flatMap_right _
    have hq : (q.calls.flatMap SystemCall.inserts).Perm
        (ks.flatMap SystemCall.inserts ++ rest.flatMap SystemCall.inserts) := by
      rw [← List.flatMap_append]
      exact hcalls.flatMap_right _
    rw [hids]
    refine h.distinct.subperm ?_
    refine (hq.append_left _).subperm.trans (List.Subperm.trans ?_ (hp.append_left _).symm.subperm)
    rw [← List.append_assoc, ← List.append_assoc]
    exact hinserts.append (List.Subperm.refl _)
  kept := hkept
  calls := by
    intro k' hk'
    rcases List.mem_append.mp (hcalls.mem_iff.mp hk') with hk' | hk'
    · exact hks k' hk'
    · exact (h.calls k' (hperm.mem_iff.mpr (List.mem_cons_of_mem _ hk'))).grow hgrow
  answers := by
    intro a ha
    rcases hanswers a ha with ha | hright
    · exact (h.answers a ha).grow hgrow
    · exact hright

theorem grows_refl (s : SystemState σ) : Grows s s :=
  ⟨List.Subset.refl _, List.Subset.refl _, List.Subset.refl _⟩

/-- The next call of a request -/
theorem inv_call (hdao : dao.Lawful) (hjson : JsonRoundTrips dump parse)
    {p q : Pool (SystemState σ) SystemCall} (h : Inv dao dump parse p) {k : SystemCall}
    {rest : List SystemCall} (hperm : p.calls.Perm (k :: rest)) {e : SystemEffect}
    {s' : SystemState σ} {ks : List SystemCall} (hnext : next dao parse p.shared e k = (s', ks))
    (hshared : q.shared = s') (hcalls : q.calls.Perm (ks ++ rest)) : Inv dao dump parse q := by
  have hk : k.Sound p.shared := h.calls k (hperm.mem_iff.mpr List.mem_cons_self)
  rcases q with ⟨shared, calls⟩
  subst hshared
  -- a call that changes nothing but which calls are next
  have hsame : ∀ ks : List SystemCall, calls.Perm (ks ++ rest) →
      (ks.flatMap SystemCall.inserts).Sublist k.inserts → (∀ k' ∈ ks, k'.Sound p.shared) →
      Inv dao dump parse ⟨p.shared, calls⟩ := by
    intro ks hcalls hinserts hks
    exact h.advance hperm hcalls (grows_refl _) rfl (hinserts.append_left _).subperm h.kept hks
      fun a ha => Or.inl ha
  cases k with
  | insert msgs =>
      cases msgs with
      | nil =>
          cases hnext
          exact hsame [] hcalls (List.Sublist.refl _) (by simp)
      | cons m msgs =>
          simp only [next] at hnext
          have hsound : ∀ s : SystemState σ, ∀ k' ∈ [SystemCall.insert msgs], k'.Sound s := by
            intro s k' hk'
            rw [List.mem_singleton.mp hk']
            trivial
          split_ifs at hnext
          · cases hnext
            refine hsame _ hcalls ?_ (hsound _)
            rw [List.flatMap_singleton]
            exact List.sublist_cons_self m msgs
          · cases hnext
            have hnew : m ∉ p.shared.pushed := by
              intro hm
              have hinserts : m ∈ p.calls.flatMap SystemCall.inserts :=
                List.mem_flatMap.mpr ⟨_, hperm.mem_iff.mpr List.mem_cons_self, List.mem_cons_self⟩
              exact List.disjoint_of_nodup_append h.distinct.nodup hm hinserts
            refine h.advance hperm hcalls ⟨List.subset_cons_self _ _, List.Subset.refl _,
              List.Subset.refl _⟩ rfl ?_ (h.kept.insert hdao hnew) (hsound _) fun a ha => Or.inl ha
            rw [List.flatMap_singleton]
            exact List.perm_middle.symm.subperm
  | own uid =>
      simp only [next] at hnext
      split_ifs at hnext
      · cases hnext
        refine hsame _ hcalls (List.Sublist.refl _) ?_
        intro k' hk'
        rw [List.mem_singleton.mp hk']
        exact ⟨hk, List.Subset.refl _, List.Subset.refl _,
          reads_get hdao h.kept (List.Subset.refl _) (List.Subset.refl _) uid⟩
      · cases hnext
        exact hsame _ hcalls (List.Sublist.refl _) (by simp)
  | all uid before msgs =>
      cases hnext
      refine hsame _ hcalls (List.Sublist.refl _) ?_
      intro k' hk'
      rw [List.mem_singleton.mp hk']
      refine ⟨⟨hk.1, hk.2.2.2, ?_⟩, rfl⟩
      intro all hall
      simp only at hall
      split_ifs at hall
      · cases hall
        exact reads_get hdao h.kept hk.2.1 hk.2.2.1 kAll
      · cases hall
  | each r looked msgs =>
      cases msgs with
      | nil =>
          cases hnext
          rcases hk with ⟨hr, hlooked⟩
          rw [List.append_nil] at hlooked
          have hgrow : Grows p.shared { p.shared with
              answers := ⟨r, looked, SysMsgContent.newest (toSendMsgs parse looked)⟩ ::
                p.shared.answers } :=
            ⟨List.Subset.refl _, List.Subset.refl _, List.Subset.refl _⟩
          refine h.advance hperm hcalls hgrow rfl (List.Subperm.refl _)
            ⟨h.kept.held, h.kept.kept, h.kept.gone, h.kept.acked, h.kept.found⟩ (by simp) ?_
          intro a ha
          rcases List.mem_cons.mp ha with rfl | ha
          · exact Or.inr ((right_newest hjson hr h.distinct_pushed hlooked).grow hgrow)
          · exact Or.inl ha
      | cons m msgs =>
          rcases hk with ⟨hr, hlooked⟩
          have hnextSound : ∀ s : SystemState σ, Grows p.shared s →
              ∀ k' ∈ [SystemCall.each r (looked ++ [(m, e.nowInSec)]) msgs], k'.Sound s := by
            intro s hs k' hk'
            rw [List.mem_singleton.mp hk']
            refine ⟨hr.grow hs, ?_⟩
            rw [List.map_append, List.append_assoc]
            exact hlooked
          have hm : m ∈ p.shared.pushed := by
            refine hr.pushed ?_
            rw [← hlooked]
            exact List.mem_append_right _ List.mem_cons_self
          simp only [next] at hnext
          split at hnext
          · rename_i hdelete
            cases hnext
            have hgrow : ∀ stored : σ, Grows p.shared
                { p.shared with stored := stored, found := m :: p.shared.found } :=
              fun _ => ⟨List.Subset.refl _, List.Subset.refl _, List.subset_cons_self _ _⟩
            refine h.advance hperm hcalls (hgrow _) rfl (List.Subperm.refl _)
              (h.kept.del hdao hdelete ?_ ?_) (hnextSound _ (hgrow _)) fun a ha => Or.inl ha
            · intro m' hm' hd hid
              exact h.distinct_pushed.eq_of_id hm' hm hd hid
            · split_ifs
              · exact Or.inl rfl
              · exact Or.inr rfl
          · cases hnext
            exact hsame _ hcalls (List.Sublist.refl _) (hnextSound _ (grows_refl _))
  | ack uid mid =>
      simp only [next] at hnext
      split_ifs at hnext
      · cases hnext
        exact hsame _ hcalls (List.Sublist.refl _) (by simp)
      · cases hnext
        exact h.advance hperm hcalls ⟨List.Subset.refl _, List.subset_cons_self _ _,
          List.Subset.refl _⟩ rfl (List.Subperm.refl _) (h.kept.ack hdao uid mid) (by simp)
            fun a ha => Or.inl ha

/-- A message of the system has an id of its own, and there is no user whose uid is that of all. -/
def Fits (p : Pool (SystemState σ) SystemCall) : SystemEvent → Prop
  | .push _ msg accounts _ => msg.Utf8Strings ∧ msg.id ∉ p.shared.ids ∧
      (accounts.map Account.uid).Nodup ∧ ∀ account ∈ accounts, account.uid ≠ kAll
  | .get uid => uid ≠ kAll
  | .ack _ _ => True

/-- A request comes in. -/
theorem inv_env {p : Pool (SystemState σ) SystemCall} (h : Inv dao dump parse p)
    {event : SystemEvent} (hevent : Fits p event) :
    Inv dao dump parse
      ⟨(c.receive dump p.shared event).1, p.calls ++ (c.receive dump p.shared event).2⟩ := by
  -- a call that stores nothing
  have hjoin : ∀ ks : List SystemCall, ks.flatMap SystemCall.inserts = [] →
      (∀ k ∈ ks, k.Sound p.shared) → Inv dao dump parse ⟨p.shared, p.calls ++ ks⟩ := by
    intro ks hinserts hks
    refine ⟨?_, h.kept, ?_, h.answers⟩
    · rw [List.flatMap_append, hinserts, List.append_nil]
      exact h.distinct
    · rw [List.forall_mem_append]
      exact ⟨h.calls, hks⟩
  -- messages that are new
  have hpush : ∀ (msg : SysMsgContent) (destinations : List Bytes), msg.Utf8Strings →
      msg.id ∉ p.shared.ids → destinations.Nodup →
      (∀ d ∈ destinations, ∀ d' ∈ destinations, (d = kAll ↔ d' = kAll)) →
      Inv dao dump parse ⟨{ p.shared with ids := msg.id :: p.shared.ids },
        p.calls ++ [.insert (destinations.map fun d => msg.row dump d)]⟩ := by
    intro msg destinations hmsg hid hnodup hall
    have hgrow : Grows p.shared { p.shared with ids := msg.id :: p.shared.ids } :=
      ⟨List.Subset.refl _, List.Subset.refl _, List.Subset.refl _⟩
    refine ⟨?_, ⟨h.kept.held, h.kept.kept, h.kept.gone, h.kept.acked, h.kept.found⟩, ?_,
      fun a ha => (h.answers a ha).grow hgrow⟩
    · rw [List.flatMap_append, List.flatMap_singleton, ← List.append_assoc]
      exact h.distinct.append hmsg hid hnodup hall
    · rw [List.forall_mem_append]
      refine ⟨fun k hk => (h.calls k hk).grow hgrow, ?_⟩
      intro k hk
      rw [List.mem_singleton.mp hk]
      trivial
  cases event with
  | push type msg accounts nowInMilli =>
      rcases hevent with ⟨hmsg, hid, hnodup, hne⟩
      simp only [receive]
      split_ifs
      · exact hjoin [] rfl (by simp)
      · exact hpush msg [kAll] hmsg hid (List.nodup_singleton _) (by simp)
      · have hdestinations := hpush msg ((accounts.filter fun account =>
          (account.getDevice c.masterId).any fun device => device.isDevicePushable nowInMilli).map
            Account.uid) hmsg hid (hnodup.sublist (List.filter_sublist.map _)) (by
              have hother : ∀ d ∈ (accounts.filter fun account =>
                  (account.getDevice c.masterId).any fun device =>
                    device.isDevicePushable nowInMilli).map Account.uid, d ≠ kAll := by
                intro d hd
                rcases List.mem_map.mp hd with ⟨account, haccount, rfl⟩
                exact hne account (List.mem_of_mem_filter haccount)
              intro d hd d' hd'
              exact iff_of_false (hother d hd) (hother d' hd'))
        rw [List.map_map] at hdestinations
        exact hdestinations
      · exact hjoin [] rfl (by simp)
  | get uid =>
      refine hjoin [.own uid] rfl ?_
      intro k hk
      rw [List.mem_singleton.mp hk]
      exact hevent
  | ack uid mid =>
      simp only [receive]
      split
      · refine hjoin _ rfl ?_
        intro k hk
        rw [List.mem_singleton.mp hk]
        trivial
      · exact hjoin [] rfl (by simp)

/-- In every order of requests: an answer has the newest message of each activity, of what was read
and has not come to its end. What was read leaves out only what had been acknowledged or found
to be deleted, or is older than sixteen others; and what is found so is at its end or
unreadable. -/
theorem messages_answered (hdao : dao.Lawful) (hjson : JsonRoundTrips dump parse) {stored : σ}
    (hstored : ∀ m, ¬ dao.holds stored m) {ls : List (Sched SystemEffect SystemEvent)}
    {p : Pool (SystemState σ) SystemCall}
    (hok : (c.system dao dump parse).machine.Meets
      (CallSystem.allow (fun _ _ _ => True) fun p event => Fits p event) (start stored) ls)
    (hrun : (c.system dao dump parse).machine.run (start stored) ls = some p) :
    (∀ a ∈ p.shared.answers, a.Right parse p.shared) ∧
      ∀ m ∈ p.shared.found, ∃ now, m.judge parse now = .delete := by
  have hstart : Inv dao dump parse (start stored) := by
    refine ⟨⟨List.nodup_nil, by simp [start], by simp [start], by simp [start]⟩, ?_, by simp [start],
      by simp [start]⟩
    exact ⟨fun m hm => absurd hm (hstored m), by simp [start], by simp [start], by simp [start],
      by simp [start]⟩
  have hinv : Inv dao dump parse p := by
    refine (c.system dao dump parse).run_invariant (Inv dao dump parse) ?_ ?_ hstart hok hrun
    · intro p q k rest e s ks h hperm _ hnext hshared hcalls
      exact inv_call hdao hjson h hperm (Option.some.inj hnext) hshared hcalls
    · intro p event s ks h hevent henv
      have hreceive := Option.some.inj henv
      have hinv := inv_env (c := c) h hevent
      rw [hreceive] at hinv
      exact hinv
  exact ⟨hinv.answers, hinv.kept.found⟩

/-- A store that is a list -/
def listed : SysMsgs (List SysMsg) where
  holds s m := m ∈ s
  get s d := ((s.filter fun m => m.destination = d).dedup.insertionSort
    fun a b => b.sysmsgid.toNat ≤ a.sysmsgid.toNat).take kMaxSysMsgSize
  del s d id := s.filter fun m => ¬ (m.destination = d ∧ m.sysmsgid = id)
  delBatch s d maxMid := s.filter fun m => ¬ (m.destination = d ∧ m.sysmsgid ≤ maxMid)
  insert s m := m :: s

theorem lawful_listed : listed.Lawful := by
  have hperm : ∀ (s : List SysMsg) (d : Bytes),
      ((s.filter fun m => m.destination = d).dedup.insertionSort
        fun a b => b.sysmsgid.toNat ≤ a.sysmsgid.toNat).Perm
          (s.filter fun m => m.destination = d).dedup := fun s d => List.perm_insertionSort _ _
  refine ⟨?_, ?_, ?_, ?_, ?_, ?_⟩
  · intro s d m hm
    have hmem := (hperm s d).mem_iff.mp (List.mem_of_mem_take hm)
    rw [List.mem_dedup, List.mem_filter, decide_eq_true_eq] at hmem
    exact hmem
  · intro s d
    exact ((hperm s d).nodup_iff.mpr (List.nodup_dedup _)).sublist (List.take_sublist _ _)
  · intro s m hm
    have hmem : m ∈ (s.filter fun m' => m'.destination = m.destination).dedup.insertionSort
        fun a b => b.sysmsgid.toNat ≤ a.sysmsgid.toNat := by
      rw [(hperm s m.destination).mem_iff, List.mem_dedup, List.mem_filter]
      exact ⟨hm, decide_eq_true rfl⟩
    have hsorted : ((s.filter fun m' => m'.destination = m.destination).dedup.insertionSort
        fun a b => b.sysmsgid.toNat ≤ a.sysmsgid.toNat).Pairwise
          fun a b => b.sysmsgid.toNat ≤ a.sysmsgid.toNat := by
      have htotal : Std.Total fun a b : SysMsg => b.sysmsgid.toNat ≤ a.sysmsgid.toNat :=
        ⟨fun a b => Nat.le_total _ _⟩
      have htrans : IsTrans SysMsg fun a b => b.sysmsgid.toNat ≤ a.sysmsgid.toNat :=
        ⟨fun a b c hab hbc => Nat.le_trans hbc hab⟩
      exact List.pairwise_insertionSort _ _
    rw [← List.take_append_drop kMaxSysMsgSize (List.insertionSort _ _)] at hmem hsorted
    rcases List.mem_append.mp hmem with hmem | hmem
    · exact Or.inl hmem
    · refine Or.inr ⟨?_, ?_⟩
      · have hlt := List.length_pos_of_mem hmem
        rw [List.length_drop] at hlt
        exact List.length_take_of_le (by omega)
      · intro m' hm'
        exact UInt64.le_iff_toNat_le.mpr ((List.pairwise_append.mp hsorted).2.2 m' hm' m hmem)
  · intro s d id m
    show m ∈ s.filter _ ↔ _
    rw [List.mem_filter, decide_eq_true_eq]
    exact Iff.rfl
  · intro s d maxMid m
    show m ∈ s.filter _ ↔ _
    rw [List.mem_filter, decide_eq_true_eq]
    exact Iff.rfl
  · intro s m m'
    exact List.mem_cons

/-- A message of an activity that ends at a time -/
def message (id activityId : UInt64) (endtime : ℕ) : SysMsgContent where
  id := id
  activityId := activityId
  type := []
  content := JsonText.dump (.object [("endtime", .number endtime)])

/-- A user who can be pushed to -/
def bob : Account where
  uid := ascii "bob".toList
  devices := [{
    id := 1
    apnid := ascii "token".toList
    apntype := []
    voipapnid := []
    gcmid := []
    umengid := []
    lastseentime := 0
    clientversion := ⟨1, [], 0, []⟩ }]

/-- Two messages of one activity, one that ends soon, and one for a user, who asks twice -/
def asksTwice : List (Sched SystemEffect SystemEvent) :=
  [.env (.push BROADCAST (message 1 7 100) [] 0), .call 0 {}, .call 0 {},
    .env (.push BROADCAST (message 2 7 100) [] 0), .call 0 {}, .call 0 {},
    .env (.push BROADCAST (message 3 8 50) [] 0), .call 0 {}, .call 0 {},
    .env (.push UNICAST (message 4 9 100) [bob] 0), .call 0 {}, .call 0 {},
    .env (.get bob.uid), .call 0 {}, .call 0 {}, .call 0 { nowInSec := 60 },
    .call 0 { nowInSec := 60 }, .call 0 { nowInSec := 60 }, .call 0 { nowInSec := 60 }, .call 0 {},
    .env (.ack bob.uid (ascii ['4'])), .call 0 {},
    .env (.get bob.uid), .call 0 {}, .call 0 {}, .call 0 { nowInSec := 60 },
    .call 0 { nowInSec := 60 }, .call 0 {}]

/-- The controllers of the run -/
def opened : SystemController := ⟨true, 1⟩

/-- The condition of the runs, for ASCII -/
def FitsAscii (p : Pool (SystemState σ) SystemCall) : SystemEvent → Prop
  | .push _ msg accounts _ => (∀ c ∈ msg.type ++ msg.content, Ascii c) ∧ msg.id ∉ p.shared.ids ∧
      (accounts.map Account.uid).Nodup ∧ ∀ account ∈ accounts, account.uid ≠ kAll
  | .get uid => uid ≠ kAll
  | .ack _ _ => True

instance (p : Pool (SystemState σ) SystemCall) (event : SystemEvent) :
    Decidable (FitsAscii p event) :=
  match event with
  | .push _ msg accounts _ =>
      -- the test on the list, which is not the one over all bytes
      haveI : Decidable (∀ c ∈ msg.type ++ msg.content, Ascii c) := List.decidableBAll _ _
      inferInstanceAs (Decidable (_ ∧ msg.id ∉ p.shared.ids ∧ (accounts.map Account.uid).Nodup ∧
        ∀ account ∈ accounts, account.uid ≠ kAll))
  | .get uid => inferInstanceAs (Decidable (uid ≠ kAll))
  | .ack _ _ => inferInstanceAs (Decidable True)

theorem FitsAscii.fits {p : Pool (SystemState σ) SystemCall} {event : SystemEvent}
    (h : FitsAscii p event) : Fits p event := by
  cases event with
  | push type msg accounts nowInMilli =>
      refine ⟨⟨utf8_ascii fun c hc => h.1 c ?_, utf8_ascii fun c hc => h.1 c ?_⟩, h.2⟩
      · exact List.mem_append_left _ hc
      · exact List.mem_append_right _ hc
  | get uid => exact h
  | ack uid mid => trivial

theorem messages_answered_twice : ∃ p,
    (opened.system listed JsonText.dump JsonText.parse).machine.run (start []) asksTwice = some p ∧
      p.shared.answers.map (fun a => a.msgs.map SysMsgContent.id) = [[2], [2, 4]] ∧
      ∀ a ∈ p.shared.answers, a.Right JsonText.parse p.shared := by
  have hanswers : ((opened.system listed JsonText.dump JsonText.parse).machine.run (start [])
      asksTwice).map (fun p => p.shared.answers.map fun a => a.msgs.map SysMsgContent.id) =
        some [[2], [2, 4]] := by decide +kernel
  rcases Option.map_eq_some_iff.mp hanswers with ⟨p, hp, hanswers⟩
  have hascii : (opened.system listed JsonText.dump JsonText.parse).machine.Meets
      (CallSystem.allow (fun _ _ _ => True) fun p event => FitsAscii p event) (start []) asksTwice := by
    decide +kernel
  have hok : (opened.system listed JsonText.dump JsonText.parse).machine.Meets
      (CallSystem.allow (fun _ _ _ => True) fun p event => Fits p event) (start []) asksTwice := by
    refine Machine.meets_mono _ ?_ hascii
    intro p l h
    cases l with
    | call i e => exact h
    | env event => exact FitsAscii.fits h
  exact ⟨p, hp, hanswers,
    (messages_answered lawful_listed JsonText.parse_dump (fun m => List.not_mem_nil) hok hp).1⟩

end SystemController

end BcmServer.Controllers
