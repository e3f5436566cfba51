import BcmServer.Dispatcher.Channel
import BcmServer.Lts.Run
import Mathlib.Data.Finset.Basic

/-!
# BcmServer.Dispatcher.FriendEvents — when the stored friend events drain

The friend events of a user that could not be delivered are stored, by type. When the
device comes online `sendStoredFriendEventMessages` reads a page of each type, sends
the events that can be parsed in one message, deletes them when the client has answered,
and goes on with the types whose page was full. The events that cannot be parsed stay.

`Drains` says that a chain ends, and then every event of the types that could be parsed
has been delivered exactly once and is gone. The pages are always read from the front,
so it is the events that stay that can be in the way: `friendEvents_drain_iff` is the
equivalence of `Drains` and `DrainsWhen`.
-/

namespace BcmServer.Dispatcher

open Util Lts

/-- `dao::FriendEventType` -/
inductive FriendEventType where
  | friendRequest | friendReply | deleteFriend
deriving DecidableEq, Repr

/-- All types, in the order in which they are read -/
def FriendEventType.all : List FriendEventType := [friendRequest, friendReply, deleteFriend]

/-- `dao::FriendEvent` -/
structure FriendEvent where
  id : Int64
  data : Bytes
deriving DecidableEq, Repr

/-- The events of a user, by type, in the order in which they are read; the ids are keys. -/
structure FriendEvents where
  rows : FriendEventType → List FriendEvent
  nodup : ∀ t, ((rows t).map FriendEvent.id).Nodup

/-- `kMaxGetFriendEventsCount` -/
def kMaxGetFriendEventsCount : ℕ := 100

namespace FriendEvents

/-- `getFriendEvents` -/
def getFriendEvents (s : FriendEvents) (t : FriendEventType) : List FriendEvent :=
  (s.rows t).take kMaxGetFriendEventsCount

/-- `delFriendEvents` of each type -/
def delFriendEvents (s : FriendEvents) (ids : FriendEventType → List Int64) : FriendEvents where
  rows t := (s.rows t).filter fun e => e.id ∉ ids t
  nodup t := (s.nodup t).sublist (List.filter_sublist.map FriendEvent.id)

end FriendEvents

/-- What `prepareRequest` passes on: the events that are sent, and the types with a full page -/
structure PassedEvents where
  events : FriendEventType → List FriendEvent
  moreEventTypes : Finset FriendEventType

/-- The ids of the events that are sent -/
def PassedEvents.ids (passing : PassedEvents) (t : FriendEventType) : List Int64 :=
  (passing.events t).map FriendEvent.id

/-- The events that are sent, in the order of the message -/
def PassedEvents.message (passing : PassedEvents) : List (FriendEventType × FriendEvent) :=
  FriendEventType.all.flatMap fun t => (passing.events t).map fun e => (t, e)

/-- Where a chain is -/
inductive FriendEventStage where
  /-- `prepareRequest` is going to run -/
  | prepare (types : Finset FriendEventType)
  /-- the client is going to answer -/
  | sent (passing : PassedEvents)
  | over

/-- The store, the stage of the chain, and what was delivered -/
structure FriendEventChain where
  stored : FriendEvents
  stage : FriendEventStage
  delivered : List (FriendEventType × FriendEvent) := []

/-- What a chain is answered: whether the pages are read, whether the session has its device, the
status of the client's response, and whether the events of a type are deleted -/
structure FriendEventReply where
  readOk : Bool
  auth : Bool
  status : UInt32
  deleted : FriendEventType → Bool

namespace FriendEventChain

-- `ParseFromString` of the messages of the types
variable (parses : FriendEventType → Bytes → Bool)

/-- The event can be parsed. -/
def parsable (t : FriendEventType) (e : FriendEvent) : Bool := parses t e.data

/-- What is sent of a type: the events of its page that can be parsed -/
def sentOf (stored : FriendEvents) (types : Finset FriendEventType) (t : FriendEventType) :
    List FriendEvent :=
  if t ∈ types then (stored.getFriendEvents t).filter (parsable parses t) else []

/-- `prepareRequest` -/
def prepareRequest (stored : FriendEvents) (types : Finset FriendEventType) (readOk : Bool) :
    Option PassedEvents :=
  if !readOk then none
  else if FriendEventType.all.all fun t => (sentOf parses stored types t).isEmpty then none
  else
    some
      { events := sentOf parses stored types
        moreEventTypes :=
          types.filter fun t => kMaxGetFriendEventsCount ≤ (stored.getFriendEvents t).length }

/-- `handleResponse` -/
def handleResponse (c : FriendEventChain) (passing : PassedEvents) (e : FriendEventReply) :
    FriendEventChain :=
  if !e.auth then { c with stage := .over }
  else if successful e.status then
    let deletes (t : FriendEventType) : List Int64 := if e.deleted t then passing.ids t else []
    let hasError := FriendEventType.all.any fun t => !(passing.ids t).isEmpty && !e.deleted t
    let stored := c.stored.delFriendEvents deletes
    if !hasError && passing.moreEventTypes.Nonempty then
      { c with
        stored := stored
        stage := .prepare passing.moreEventTypes }
    else
      { c with
        stored := stored
        stage := .over }
  else { c with stage := .over }

def step (c : FriendEventChain) (e : FriendEventReply) : Option FriendEventChain :=
  match c.stage with
  | .prepare types =>
      match prepareRequest parses c.stored types e.readOk with
      | none => some { c with stage := .over }
      | some passing =>
          some
            { c with
              stage := .sent passing
              delivered := c.delivered ++ passing.message }
  | .sent passing => some (c.handleResponse passing e)
  | .over => none

def machine : Machine FriendEventChain FriendEventReply := ⟨step parses⟩

/-- `sendStoredFriendEventMessages` -/
def start (stored : FriendEvents) (types : Finset FriendEventType) : FriendEventChain :=
  { stored := stored
    stage := .prepare types }

/-! ## The property -/

/-- The client answers with 2xx and the store does what it is asked to; `auth` is whether the
session has its device. -/
structure Obliges (auth : Bool) (e : FriendEventReply) : Prop where
  session : e.auth = auth
  read : e.readOk = true
  status : successful e.status = true
  deleted : ∀ t, e.deleted t = true

def Obliging (auth : Bool) (_ : FriendEventChain) (e : FriendEventReply) : Prop := Obliges auth e

/-- The chain ends, and then every event of the types that can be parsed was delivered exactly
once and is not stored any more. -/
structure Drains (auth : Bool) (stored : FriendEvents) (types : Finset FriendEventType) : Prop where
  bounded : ∃ n, ∀ es c, (machine parses).run (start stored types) es = some c →
    (machine parses).Meets (Obliging auth) (start stored types) es → es.length ≤ n
  progress : ∀ es c, (machine parses).run (start stored types) es = some c →
    (machine parses).Meets (Obliging auth) (start stored types) es → c.stage ≠ .over →
      ∃ e, Obliging auth c e ∧ ((machine parses).step c e).isSome
  drained : ∀ es c, (machine parses).run (start stored types) es = some c →
    (machine parses).Meets (Obliging auth) (start stored types) es → c.stage = .over →
      ∀ t ∈ types, ∀ e ∈ stored.rows t, parsable parses t e = true →
        c.delivered.count (t, e) = 1 ∧ e ∉ c.stored.rows t

/-- Before every event that can be parsed there is less than a page of events that cannot. -/
def Clear (t : FriendEventType) (rows : List FriendEvent) : Prop :=
  ∀ before e after, rows = before ++ e :: after → parsable parses t e = true →
    before.countP (fun e => !parsable parses t e) < kMaxGetFriendEventsCount

/-- The condition: the types are clear, and the session has its device or there is nothing to
deliver. -/
def DrainsWhen (auth : Bool) (stored : FriendEvents) (types : Finset FriendEventType) : Prop :=
  (auth = true ∨ ∀ t ∈ types, ∀ e ∈ stored.rows t, parsable parses t e = false) ∧
    ∀ t ∈ types, Clear parses t (stored.rows t)

/-! ## One page -/

section Page

variable {parses} {t : FriendEventType} {rows : List FriendEvent}

/-- The events of a page that can be parsed are deleted; the others stay in front. -/
theorem filter_sent (hids : (rows.map FriendEvent.id).Nodup) (n : ℕ) :
    (rows.filter fun e => e.id ∉ ((rows.take n).filter (parsable parses t)).map FriendEvent.id) =
      (rows.take n).filter (fun e => !parsable parses t e) ++ rows.drop n := by
  -- an id in the page is that of one event only
  have hid : ∀ e ∈ rows, e.id ∈ ((rows.take n).filter (parsable parses t)).map FriendEvent.id ↔
      e ∈ rows.take n ∧ parsable parses t e = true := by
    intro e he
    rw [List.mem_map]
    constructor
    · rintro ⟨e', he', heq⟩
      obtain ⟨htake, hparses⟩ := List.mem_filter.mp he'
      obtain rfl := List.inj_on_of_nodup_map hids (List.mem_of_mem_take htake) he heq
      exact ⟨htake, hparses⟩
    · intro h
      exact ⟨e, List.mem_filter.mpr h, rfl⟩
  have hdisjoint := List.disjoint_take_drop hids.of_map (le_refl n)
  generalize ((rows.take n).filter (parsable parses t)).map FriendEvent.id = ids at hid
  conv_lhs => rw [← List.take_append_drop n rows]
  rw [List.filter_append]
  congr 1
  · refine List.filter_congr fun e he => ?_
    have hiff := hid e (List.mem_of_mem_take he)
    simp only [he, true_and] at hiff
    simp [hiff]
  · rw [List.filter_eq_self]
    intro e he
    have hiff := hid e (List.mem_of_mem_drop he)
    simp only [decide_not, Bool.not_eq_true', decide_eq_false_iff_not, hiff]
    exact fun hmem => hdisjoint hmem.1 he

/-- What can be parsed is what was sent and what is left. -/
theorem filter_parsable (n : ℕ) : rows.filter (parsable parses t) =
    (rows.take n).filter (parsable parses t) ++
      ((rows.take n).filter (fun e => !parsable parses t e) ++ rows.drop n).filter
        (parsable parses t) := by
  have hnone : ((rows.take n).filter fun e => !parsable parses t e).filter (parsable parses t) =
      [] := by
    rw [List.filter_filter, List.filter_eq_nil_iff]
    intro e _
    simp
  conv_lhs => rw [← List.take_append_drop n rows]
  rw [List.filter_append, List.filter_append, hnone, List.nil_append]

theorem countP_filter_not (l : List FriendEvent) :
    (l.filter fun e => !parsable parses t e).countP (fun e => !parsable parses t e) =
      l.countP fun e => !parsable parses t e := by
  rw [List.countP_filter]
  simp

/-- A page that is sent leaves a type clear if it was, and not if it was not. -/
theorem clear_sent {page rest : List FriendEvent} (hpage : page.length ≤ kMaxGetFriendEventsCount) :
    Clear parses t (page.filter (fun e => !parsable parses t e) ++ rest) ↔
      Clear parses t (page ++ rest) := by
  have hcount : ∀ l : List FriendEvent,
      (page.filter (fun e => !parsable parses t e) ++ l).countP (fun e => !parsable parses t e) =
        (page ++ l).countP fun e => !parsable parses t e := by
    intro l
    rw [List.countP_append, List.countP_append, countP_filter_not]
  constructor
  · intro h before e after heq hparses
    obtain ⟨c, hbefore, hrest⟩ | ⟨c, hpage', hafter⟩ := List.append_eq_append_iff.mp heq
    · -- behind the page
      rw [hbefore, ← hcount]
      refine h _ e after ?_ hparses
      rw [hrest, List.append_assoc]
    · rcases c with _ | ⟨e', c⟩
      · rw [List.append_nil] at hpage'
        rw [← hpage', ← List.append_nil page, ← hcount]
        refine h _ e after ?_ hparses
        rw [List.append_nil, hafter, List.nil_append]
      · -- in the page
        have hlt : before.length < page.length := by simp [hpage']
        exact Nat.lt_of_le_of_lt List.countP_le_length (Nat.lt_of_lt_of_le hlt hpage)
  · intro h before e after heq hparses
    obtain ⟨c, hbefore, hrest⟩ | ⟨c, hpage', hafter⟩ := List.append_eq_append_iff.mp heq
    · rw [hbefore, hcount]
      refine h _ e after ?_ hparses
      rw [hrest, List.append_assoc]
    · rcases c with _ | ⟨e', c⟩
      · rw [List.append_nil] at hpage'
        rw [← hpage', ← List.append_nil (page.filter _), hcount]
        refine h _ e after ?_ hparses
        rw [List.append_nil, hafter, List.nil_append]
      · -- nothing in front of the rest can be parsed
        obtain ⟨rfl, -⟩ := List.cons.inj hafter
        have hmem : e ∈ page.filter fun e => !parsable parses t e := by simp [hpage']
        simp [hparses] at hmem

/-- Where nothing of the first page can be parsed nothing can, if the type is clear. -/
theorem nothing_left (hclear : Clear parses t rows)
    (hpage : (rows.take kMaxGetFriendEventsCount).filter (parsable parses t) = []) :
    rows.filter (parsable parses t) = [] := by
  rw [List.filter_eq_nil_iff] at hpage ⊢
  intro e he hparses
  obtain ⟨before, after, rfl⟩ := List.append_of_mem he
  have hlt := hclear before e after rfl hparses
  obtain hshort | hlong := Nat.lt_or_ge before.length kMaxGetFriendEventsCount
  · refine hpage e ?_ hparses
    rw [List.take_append, List.mem_append]
    right
    obtain ⟨k, hk⟩ := Nat.exists_eq_add_of_lt hshort
    rw [hk, Nat.add_assoc, Nat.add_sub_cancel_left, List.take_succ_cons]
    exact List.mem_cons_self
  · -- the whole page is in front of the event
    have htake : (before ++ e :: after).take kMaxGetFriendEventsCount =
        before.take kMaxGetFriendEventsCount := List.take_append_of_le_length hlong
    rw [htake] at hpage
    have hall : (before.take kMaxGetFriendEventsCount).countP (fun e => !parsable parses t e) =
        kMaxGetFriendEventsCount := by
      rw [List.countP_eq_length.mpr fun e he => by simpa using hpage e he, List.length_take]
      omega
    have hle := (List.take_sublist kMaxGetFriendEventsCount before).countP_le
      (p := fun e => !parsable parses t e)
    omega

end Page

/-! ## A chain whose session has its device -/

/-- The store when the client will have answered -/
def settled (c : FriendEventChain) : FriendEvents :=
  match c.stage with
  | .sent passing => c.stored.delFriendEvents passing.ids
  | _ => c.stored

/-- The types the chain goes on with -/
def nextTypes (c : FriendEventChain) : Finset FriendEventType :=
  match c.stage with
  | .prepare types => types
  | .sent passing => passing.moreEventTypes
  | .over => ∅

/-- What holds in every state: what was delivered and what is left is what was there, nothing comes
in the way, and of the types the chain is done with nothing is left. -/
structure Inv (stored : FriendEvents) (types : Finset FriendEventType) (c : FriendEventChain) :
    Prop where
  conserved : ∀ t e, c.delivered.count (t, e) +
    ((c.settled.rows t).filter (parsable parses t)).count e =
      ((stored.rows t).filter (parsable parses t)).count e
  clear : ∀ t, Clear parses t (c.settled.rows t) ↔ Clear parses t (stored.rows t)
  done : ∀ t ∈ types, t ∉ c.nextTypes → Clear parses t (stored.rows t) →
    (c.settled.rows t).filter (parsable parses t) = []

variable {parses} {stored : FriendEvents} {types : Finset FriendEventType}
  {c c' : FriendEventChain}

theorem count_pair (t t' : FriendEventType) (e : FriendEvent) (l : List FriendEvent) :
    (l.map fun e => (t', e)).count (t, e) = if t' = t then l.count e else 0 := by
  induction l with
  | nil => simp
  | cons a l ih =>
      rw [List.map_cons, List.count_cons, List.count_cons, ih]
      by_cases ht : t' = t <;> simp [ht]

theorem count_message (passing : PassedEvents) (t : FriendEventType) (e : FriendEvent) :
    passing.message.count (t, e) = (passing.events t).count e := by
  simp only [PassedEvents.message, FriendEventType.all, List.flatMap_cons, List.flatMap_nil,
    List.append_nil, List.count_append, count_pair]
  cases t <;> simp

/-- What is left of a type when the client has answered -/
theorem rows_sent (stored : FriendEvents) (types : Finset FriendEventType) (t : FriendEventType) :
    ((stored.rows t).filter fun e => e.id ∉ (sentOf parses stored types t).map FriendEvent.id) =
      if t ∈ types then
        (stored.getFriendEvents t).filter (fun e => !parsable parses t e) ++
          (stored.rows t).drop kMaxGetFriendEventsCount
      else stored.rows t := by
  unfold sentOf
  by_cases ht : t ∈ types
  · rw [if_pos ht, if_pos ht]
    exact filter_sent (stored.nodup t) kMaxGetFriendEventsCount
  · simp [ht]

/-- What a prepared request passes on -/
theorem prepareRequest_some {passing : PassedEvents}
    (h : prepareRequest parses stored types true = some passing) :
    passing.events = sentOf parses stored types ∧
      passing.moreEventTypes =
        types.filter (fun t => kMaxGetFriendEventsCount ≤ (stored.getFriendEvents t).length) ∧
      ∃ t, sentOf parses stored types t ≠ [] := by
  simp only [prepareRequest, Bool.not_true, Bool.false_eq_true, if_false] at h
  split_ifs at h with hempty
  cases h
  refine ⟨rfl, rfl, ?_⟩
  rw [List.all_eq_true] at hempty
  push Not at hempty
  obtain ⟨t, -, ht⟩ := hempty
  exact ⟨t, by simpa using ht⟩

/-- What is left when the client has answered a request -/
theorem rows_delFriendEvents {passing : PassedEvents}
    (h : passing.events = sentOf parses stored types) (t : FriendEventType) :
    (stored.delFriendEvents passing.ids).rows t =
      if t ∈ types then
        (stored.getFriendEvents t).filter (fun e => !parsable parses t e) ++
          (stored.rows t).drop kMaxGetFriendEventsCount
      else stored.rows t := by
  rw [← rows_sent, FriendEvents.delFriendEvents]
  simp only [PassedEvents.ids, h]

theorem prepareRequest_none (h : prepareRequest parses stored types true = none)
    (t : FriendEventType) : sentOf parses stored types t = [] := by
  simp only [prepareRequest, Bool.not_true, Bool.false_eq_true, if_false] at h
  split_ifs at h with hempty
  rw [List.all_eq_true] at hempty
  have hall : t ∈ FriendEventType.all := by cases t <;> decide
  simpa using hempty t hall

theorem inv_start (stored : FriendEvents) (types : Finset FriendEventType) :
    Inv parses stored types (start stored types) := by
  refine ⟨fun t e => ?_, fun t => Iff.rfl, fun t ht hno => absurd ht hno⟩
  simp [start, settled]

theorem inv_prepare {types' : Finset FriendEventType} {passing : PassedEvents}
    (h : Inv parses stored types c) (hstage : c.stage = .prepare types')
    (hprepare : prepareRequest parses c.stored types' true = some passing) :
    Inv parses stored types
      { c with
        stage := .sent passing
        delivered := c.delivered ++ passing.message } := by
  obtain ⟨hevents, hmore, -⟩ := prepareRequest_some hprepare
  have hsettled : c.settled = c.stored := by rw [settled, hstage]
  have hrows := rows_delFriendEvents hevents
  constructor
  · intro t e
    rw [← h.conserved t e, hsettled, List.count_append, count_message, Nat.add_assoc]
    congr 1
    change _ + (((c.stored.delFriendEvents passing.ids).rows t).filter _).count e = _
    rw [hrows, hevents, sentOf]
    by_cases ht : t ∈ types'
    · -- what is sent and what is left of the page make up the page
      rw [if_pos ht, if_pos ht, ← List.count_append]
      congr 1
      exact (filter_parsable kMaxGetFriendEventsCount).symm
    · rw [if_neg ht, if_neg ht, List.count_nil, Nat.zero_add]
  · intro t
    rw [← h.clear t, hsettled]
    change Clear parses t ((c.stored.delFriendEvents passing.ids).rows t) ↔ _
    rw [hrows]
    by_cases ht : t ∈ types'
    · -- what cannot be parsed stays where it is
      rw [if_pos ht, FriendEvents.getFriendEvents, clear_sent (List.length_take_le _ _),
        List.take_append_drop]
    · rw [if_neg ht]
  · intro t ht hno hclear
    change (((c.stored.delFriendEvents passing.ids).rows t).filter _) = []
    rw [hrows]
    by_cases ht' : t ∈ types'
    · -- the page was not full
      have hshort : (c.stored.rows t).length < kMaxGetFriendEventsCount := by
        by_contra hlong
        apply hno
        change t ∈ passing.moreEventTypes
        rw [hmore, Finset.mem_filter]
        refine ⟨ht', ?_⟩
        rw [FriendEvents.getFriendEvents, List.length_take]
        omega
      rw [if_pos ht', List.drop_eq_nil_of_le (Nat.le_of_lt hshort), List.append_nil,
        List.filter_filter, List.filter_eq_nil_iff]
      intro e _
      simp
    · rw [if_neg ht', ← hsettled]
      have hnext : c.nextTypes = types' := by rw [nextTypes, hstage]
      exact h.done t ht (hnext ▸ ht') hclear

/-- Where nothing is sent nothing is left. -/
theorem inv_nothing {types' : Finset FriendEventType} (h : Inv parses stored types c)
    (hstage : c.stage = .prepare types')
    (hprepare : prepareRequest parses c.stored types' true = none) :
    Inv parses stored types { c with stage := .over } := by
  have hsettled : c.settled = c.stored := by rw [settled, hstage]
  refine ⟨?_, ?_, fun t ht _ hclear => ?_⟩
  · intro t e
    rw [← h.conserved t e, hsettled]
    rfl
  · intro t
    rw [← h.clear t, hsettled]
    rfl
  · change (c.stored.rows t).filter _ = []
    by_cases ht' : t ∈ types'
    · have hpage := prepareRequest_none hprepare t
      rw [sentOf, if_pos ht'] at hpage
      refine nothing_left ?_ hpage
      rw [← hsettled]
      exact (h.clear t).mpr hclear
    · have hnext : c.nextTypes = types' := by rw [nextTypes, hstage]
      rw [← hsettled]
      exact h.done t ht (hnext ▸ ht') hclear

/-- What an obliging answer leaves -/
theorem handleResponse_obliging {passing : PassedEvents} {e : FriendEventReply}
    (he : Obliges true e) : c.handleResponse passing e =
      { c with
        stored := c.stored.delFriendEvents passing.ids
        stage :=
          if passing.moreEventTypes.Nonempty then .prepare passing.moreEventTypes else .over } := by
  have hdeletes : (fun t => if e.deleted t then passing.ids t else []) = passing.ids := by
    funext t
    rw [if_pos (he.deleted t)]
  have herror : (FriendEventType.all.any fun t => !(passing.ids t).isEmpty && !e.deleted t) =
      false := by
    simp [he.deleted]
  simp only [handleResponse, he.session, he.status, Bool.not_true, Bool.false_eq_true, if_false,
    if_true, hdeletes, herror, Bool.not_false, Bool.true_and, decide_eq_true_eq]
  split_ifs <;> rfl

theorem inv_answered {passing : PassedEvents} {e : FriendEventReply}
    (h : Inv parses stored types c) (hstage : c.stage = .sent passing) (he : Obliges true e) :
    Inv parses stored types (c.handleResponse passing e) := by
  have hsettled : c.settled = c.stored.delFriendEvents passing.ids := by rw [settled, hstage]
  have hsettled' : (c.handleResponse passing e).settled = c.settled := by
    rw [handleResponse_obliging he, hsettled]
    unfold settled
    split_ifs <;> rfl
  have hnext : (c.handleResponse passing e).nextTypes = c.nextTypes := by
    rw [handleResponse_obliging he]
    unfold nextTypes
    rw [hstage]
    by_cases hmore : passing.moreEventTypes.Nonempty
    · rw [if_pos hmore]
    · rw [if_neg hmore]
      exact (Finset.not_nonempty_iff_eq_empty.mp hmore).symm
  have hdelivered : (c.handleResponse passing e).delivered = c.delivered := by
    rw [handleResponse_obliging he]
  refine ⟨?_, ?_, ?_⟩
  · rw [hsettled', hdelivered]
    exact h.conserved
  · rw [hsettled']
    exact h.clear
  · rw [hsettled', hnext]
    exact h.done

theorem inv_step {e : FriendEventReply} (h : Inv parses stored types c) (he : Obliges true e)
    (hstep : step parses c e = some c') : Inv parses stored types c' := by
  unfold step at hstep
  rw [he.read] at hstep
  split at hstep
  · rename_i types' hstage
    split at hstep
    · rename_i hprepare
      cases hstep
      exact inv_nothing h hstage hprepare
    · rename_i passing hprepare
      cases hstep
      exact inv_prepare h hstage hprepare
  · rename_i passing hstage
    cases hstep
    exact inv_answered h hstage he
  · cases hstep

/-! ## Every chain ends -/

/-- The number of events -/
def size (s : FriendEvents) : ℕ := (FriendEventType.all.map fun t => (s.rows t).length).sum

/-- Every request makes the store smaller. -/
def rank (c : FriendEventChain) : ℕ :=
  match c.stage with
  | .prepare _ => 2 * size c.stored + 1
  | .sent passing => 2 * size (c.stored.delFriendEvents passing.ids) + 2
  | .over => 0

theorem mem_of_mem_sentOf {t : FriendEventType} {e : FriendEvent}
    (h : e ∈ sentOf parses stored types t) : e ∈ stored.rows t := by
  unfold sentOf at h
  split at h
  · exact List.mem_of_mem_take (List.mem_filter.mp h).1
  · cases h

theorem size_sent {types' : Finset FriendEventType} {passing : PassedEvents}
    (h : prepareRequest parses stored types' true = some passing) :
    size (stored.delFriendEvents passing.ids) < size stored := by
  obtain ⟨hevents, -, t, ht⟩ := prepareRequest_some h
  have hle : ∀ t, ((stored.delFriendEvents passing.ids).rows t).length ≤ (stored.rows t).length :=
    fun t => List.length_filter_le _ _
  have hlt : ((stored.delFriendEvents passing.ids).rows t).length < (stored.rows t).length := by
    obtain ⟨e, he⟩ := List.exists_mem_of_ne_nil _ ht
    refine List.length_filter_lt_length_iff_exists.mpr ⟨e, mem_of_mem_sentOf he, ?_⟩
    have hmem : e.id ∈ passing.ids t := List.mem_map.mpr ⟨e, hevents ▸ he, rfl⟩
    simp [hmem]
  have hrequest := hle .friendRequest
  have hreply := hle .friendReply
  have hdelete := hle .deleteFriend
  simp only [size, FriendEventType.all, List.map_cons, List.map_nil, List.sum_cons, List.sum_nil]
  cases t <;> omega

theorem rank_lt {auth : Bool} {e : FriendEventReply} (he : Obliges auth e)
    (hstep : step parses c e = some c') : rank c' < rank c := by
  unfold step at hstep
  rw [he.read] at hstep
  split at hstep
  · rename_i types' hstage
    have hrank : rank c = 2 * size c.stored + 1 := by rw [rank, hstage]
    split at hstep
    · cases hstep
      rw [hrank]
      exact Nat.succ_pos _
    · rename_i passing hprepare
      cases hstep
      have hlt := size_sent hprepare
      rw [hrank]
      change 2 * size (c.stored.delFriendEvents passing.ids) + 2 < _
      omega
  · rename_i passing hstage
    have hrank : rank c = 2 * size (c.stored.delFriendEvents passing.ids) + 2 := by
      rw [rank, hstage]
    cases hstep
    rw [hrank]
    cases auth with
    | false =>
        rw [handleResponse, he.session]
        exact Nat.succ_pos _
    | true =>
        rw [handleResponse_obliging he]
        by_cases hmore : passing.moreEventTypes.Nonempty
        · simp [rank, hmore]
        · simp [rank, hmore]
  · cases hstep

/-- A reply that obliges -/
def obligingReply (auth : Bool) : FriendEventReply := ⟨true, auth, 200, fun _ => true⟩

theorem obliges_obligingReply (auth : Bool) : Obliges auth (obligingReply auth) :=
  ⟨rfl, rfl, (by decide : successful 200 = true), fun _ => rfl⟩

theorem chain_bounded (auth : Bool) (stored : FriendEvents) (types : Finset FriendEventType) :
    ∃ n, ∀ es c, (machine parses).run (start stored types) es = some c →
      (machine parses).Meets (Obliging auth) (start stored types) es → es.length ≤ n := by
  refine ⟨rank (start stored types), fun es c hrun hok => ?_⟩
  exact (machine parses).length_le_rank (fun _ => True) rank
    (fun _ _ _ _ he hstep => ⟨trivial, rank_lt he hstep⟩) trivial hok hrun

theorem chain_progress (auth : Bool) (hstage : c.stage ≠ .over) :
    ∃ e, Obliging auth c e ∧ ((machine parses).step c e).isSome := by
  refine ⟨obligingReply auth, obliges_obligingReply auth, ?_⟩
  change (step parses c (obligingReply auth)).isSome
  unfold step
  split
  · split <;> rfl
  · rfl
  · contradiction

/-! ## When a chain drains -/

theorem inv_run {es : List FriendEventReply}
    (hrun : (machine parses).run (start stored types) es = some c)
    (hok : (machine parses).Meets (Obliging true) (start stored types) es) :
    Inv parses stored types c :=
  (machine parses).run_invariant (Inv parses stored types)
    (fun _ _ _ h he hstep => inv_step h he hstep) (inv_start stored types) hok hrun

/-- A session without its device deletes nothing. -/
theorem stored_run {es : List FriendEventReply}
    (hrun : (machine parses).run (start stored types) es = some c)
    (hok : (machine parses).Meets (Obliging false) (start stored types) es) :
    c.stored = stored := by
  refine (machine parses).run_invariant (fun c => c.stored = stored) ?_ rfl hok hrun
  intro c e c' hc he hstep
  change step parses c e = some c' at hstep
  unfold step at hstep
  split at hstep
  · split at hstep
    · cases hstep
      exact hc
    · cases hstep
      exact hc
  · cases hstep
    rw [handleResponse, he.session]
    exact hc
  · cases hstep

theorem settled_of_over (hstage : c.stage = .over) : c.settled = c.stored := by
  rw [settled, hstage]

/-- A clear type is empty at the end, but for what cannot be parsed. -/
theorem drained_of_clear (h : Inv parses stored types c) (hstage : c.stage = .over)
    {t : FriendEventType} (ht : t ∈ types) (hclear : Clear parses t (stored.rows t))
    {e : FriendEvent} (he : e ∈ stored.rows t) (hparses : parsable parses t e = true) :
    c.delivered.count (t, e) = 1 ∧ e ∉ c.stored.rows t := by
  have hnext : t ∉ c.nextTypes := by
    rw [nextTypes, hstage]
    exact Finset.notMem_empty t
  have hleft := h.done t ht hnext hclear
  have hcount := h.conserved t e
  have hnodup : ((stored.rows t).filter (parsable parses t)).Nodup :=
    ((stored.nodup t).of_map).filter _
  rw [hleft, List.count_nil, Nat.add_zero,
    List.count_eq_one_of_mem hnodup (List.mem_filter.mpr ⟨he, hparses⟩)] at hcount
  refine ⟨hcount, fun hmem => ?_⟩
  rw [settled_of_over hstage, List.filter_eq_nil_iff] at hleft
  exact hleft e hmem hparses

/-- Of a type that is not clear something is left at the end. -/
theorem left_of_not_clear (h : Inv parses stored types c) (hstage : c.stage = .over)
    {t : FriendEventType} (hclear : ¬ Clear parses t (stored.rows t)) :
    ∃ e ∈ stored.rows t, parsable parses t e = true ∧ e ∈ c.stored.rows t := by
  rw [← h.clear t, settled_of_over hstage] at hclear
  unfold Clear at hclear
  push Not at hclear
  obtain ⟨before, e, after, heq, hparses, -⟩ := hclear
  have hmem : e ∈ c.stored.rows t := by
    rw [heq]
    exact List.mem_append_right _ List.mem_cons_self
  have hpos : 0 < ((c.stored.rows t).filter (parsable parses t)).count e :=
    List.count_pos_iff.mpr (List.mem_filter.mpr ⟨hmem, hparses⟩)
  have hcount := h.conserved t e
  rw [settled_of_over hstage] at hcount
  have hstored : 0 < ((stored.rows t).filter (parsable parses t)).count e := by omega
  exact ⟨e, (List.mem_filter.mp (List.count_pos_iff.mp hstored)).1, hparses, hmem⟩

/-- A chain that drains has a run to its end. -/
theorem Drains.ends {auth : Bool} (h : Drains parses auth stored types) : ∃ es c,
    (machine parses).run (start stored types) es = some c ∧
      (machine parses).Meets (Obliging auth) (start stored types) es ∧ c.stage = .over ∧
      ∀ t ∈ types, ∀ e ∈ stored.rows t, parsable parses t e = true →
        c.delivered.count (t, e) = 1 ∧ e ∉ c.stored.rows t := by
  have hnil : (machine parses).run (start stored types) [] = some (start stored types) := rfl
  obtain ⟨es, c, hrun, hok, hstage⟩ := (machine parses).run_extends (fun c => c.stage = .over)
    h.bounded h.progress hnil trivial
  exact ⟨es, c, hrun, hok, hstage, h.drained es c hrun hok hstage⟩

/-- A chain drains the friend events just when no type has a page of events that cannot be parsed
in front of one that can, and the session has its device or there is nothing to deliver. -/
theorem friendEvents_drain_iff (parses : FriendEventType → Bytes → Bool) (auth : Bool)
    (stored : FriendEvents) (types : Finset FriendEventType) :
    Drains parses auth stored types ↔ DrainsWhen parses auth stored types := by
  constructor
  · intro h
    obtain ⟨es, c, hrun, hok, hstage, hdrained⟩ := h.ends
    cases auth with
    | true =>
        refine ⟨Or.inl rfl, fun t ht => ?_⟩
        -- an event with a page of others in front of it is never read
        by_contra hclear
        obtain ⟨e, he, hparses, hleft⟩ := left_of_not_clear (inv_run hrun hok) hstage hclear
        exact (hdrained t ht e he hparses).2 hleft
    | false =>
        -- nothing is sent, and so nothing is deleted
        have hnothing : ∀ t ∈ types, ∀ e ∈ stored.rows t, parsable parses t e = false := by
          intro t ht e he
          rw [← Bool.not_eq_true]
          intro hparses
          have hgone := (hdrained t ht e he hparses).2
          rw [stored_run hrun hok] at hgone
          exact hgone he
        refine ⟨Or.inr hnothing, fun t ht before e after heq hparses => ?_⟩
        have he : e ∈ stored.rows t := by simp [heq]
        rw [hnothing t ht e he] at hparses
        cases hparses
  · rintro ⟨hauth, hclear⟩
    refine ⟨chain_bounded auth stored types, fun es c _ _ hstage => chain_progress auth hstage,
      fun es c hrun hok hstage t ht e he hparses => ?_⟩
    obtain rfl | hnothing := hauth
    · exact drained_of_clear (inv_run hrun hok) hstage ht (hclear t ht) he hparses
    · rw [hnothing t ht e he] at hparses
      cases hparses

/-- A page of requests that cannot be parsed, and one behind it that can -/
private def badPage : List FriendEvent := (List.range 100).map fun i => ⟨Int64.ofNat i, []⟩

private def behindBadPage : FriendEvents where
  rows
    | .friendRequest => badPage ++ [⟨100, [1]⟩]
    | _ => []
  nodup t := by cases t <;> decide +kernel

/-- The client answers everything and the store deletes what it is told to, but an event behind a
page that cannot be parsed is never delivered. -/
theorem page_in_the_way :
    ¬ ∀ (parses : FriendEventType → Bytes → Bool) (stored : FriendEvents)
      (types : Finset FriendEventType), Drains parses true stored types := by
  intro h
  obtain ⟨es, c, hrun, hok, hstage, hdrained⟩ :=
    (h (fun _ data => !data.isEmpty) behindBadPage {.friendRequest}).ends
  have hclear : ¬ Clear (fun _ data => !data.isEmpty) .friendRequest
      (behindBadPage.rows .friendRequest) := by
    intro hclear
    have hlt := hclear badPage ⟨100, [1]⟩ [] rfl rfl
    exact absurd hlt (by decide +kernel)
  obtain ⟨e, he, hparses, hleft⟩ := left_of_not_clear (inv_run hrun hok) hstage hclear
  exact (hdrained .friendRequest (Finset.mem_singleton_self _) e he hparses).2 hleft

end FriendEventChain

end BcmServer.Dispatcher
