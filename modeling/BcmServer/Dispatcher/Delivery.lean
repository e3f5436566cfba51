import BcmServer.Dispatcher.Channel
import BcmServer.Lts.Pool
import Mathlib.Data.Fintype.Basic
import Mathlib.Logic.Function.Basic

/-!
# BcmServer.Dispatcher.Delivery — the way of a P2P message

A sender's `sendMessage` publishes every envelope and stores it when nobody
received the publish; the receiver's dispatch thread hands it to the channel
registered for the address, the channel posts a fiber that encrypts it and
sends it to the client, and the fiber handles the response: done, published
again, or stored.

* `message_dropped_unencrypted`: five branches of this code just return, and a
  message in one of them is gone although its sender was answered 200.
* `no_accepted_message_lost`: these five are the only ways to lose a message. In
  every run that avoids them (`Reliable`) every accepted message that is not
  NOISE is acknowledged, stored or in flight.

`Tracked` is the invariant of one message; `tracked_next` is the step lemma, in
which each of the five branches shows up as the case the condition excludes.
-/

namespace BcmServer.Dispatcher

open BcmServer.Util BcmServer.Lts

/-- An envelope on its way. `registrationid` is the destination device's as the
sender read it; `tag` tells equal envelopes apart and is read by nobody. -/
structure Parcel where
  address : DispatchAddress
  registrationid : UInt32
  tag : ℕ
  envelope : Envelope
deriving DecidableEq, Repr

def Parcel.isNoise (x : Parcel) : Bool := x.envelope.type = .noise

/-- The servers, redis and the database. -/
structure Net (ι : Type) where
  /-- the redis subscriptions -/
  subscribed : ι → DispatchAddress → Bool
  /-- DELIVER messages published to a server and not yet handled, oldest first -/
  queue : ι → List Parcel
  /-- `m_bAvailable` of the channel registered for an address, if there is one -/
  channel : ι → DispatchAddress → Option Bool
  /-- stored messages, with the message each was made from -/
  mailbox : DispatchAddress → List (Parcel × StoredMessage)
  /-- what a client answered with a 2xx status -/
  acked : List Parcel
  /-- what a `sendMessage` that returned 200 was given -/
  accepted : List Parcel

/-- What the environment answers to the step of a fiber. -/
structure Answer where
  /-- the redis command went through -/
  redisOk : Bool
  /-- the authorised device of the session -/
  auth : Option Device
  /-- the status of the client's response -/
  status : UInt32
  /-- the database took the message, with this id -/
  storeOk : Option UInt64
deriving DecidableEq, Repr

/-- A running fiber: what it does next. -/
inductive DeliveryTask where
  /-- `sendMessage`, between two of its messages -/
  | sendNext (done todo : List Parcel)
  /-- `sendLocalMessage`, after a publish that nobody received -/
  | sendStore (x : Parcel) (done todo : List Parcel)
  /-- `dispatch`, before `prepareRequest` -/
  | prepare (x : Parcel)
  /-- `dispatch`, waiting for the response -/
  | awaiting (x : Parcel)
  /-- `dispatch`, before `handleResponse` -/
  | answered (x : Parcel) (status : UInt32)
  /-- `handleResponse`, before `publishMessage` -/
  | republish (x : Parcel) (d : Device)
  /-- `handleResponse`, before `MessagesManager::store` -/
  | restore (x : Parcel) (d : Device)
deriving DecidableEq, Repr

/-- What happens besides the fibers. -/
inductive NetEvent (ι : Type) where
  /-- a `sendMessage` request passed its checks -/
  | send (xs : List Parcel)
  /-- the dispatch thread of a server handles its next message -/
  | deliver (i : ι)
  /-- a server subscribes to an address or unsubscribes -/
  | setSubscribed (i : ι) (a : DispatchAddress) (b : Bool)
  /-- a channel is registered, becomes (un)available or is deleted -/
  | setChannel (i : ι) (a : DispatchAddress) (c : Option Bool)
  /-- a client acknowledges a stored message, which is then deleted -/
  | fetch (x : Parcel) (registrationid : UInt32) (id : UInt64)
deriving DecidableEq, Repr

section System

variable {ι : Type} [Fintype ι] [DecidableEq ι]

namespace Net

def initial : Net ι where
  subscribed := fun _ _ => false
  queue := fun _ => []
  channel := fun _ _ => none
  mailbox := fun _ => []
  acked := []
  accepted := []

/-- `DispatchManager::publish` and `DispatchChannel::publishMessage`: every
subscribed server gets the message, and the result is whether there is one. -/
def publish (s : Net ι) (ok : Bool) (x : Parcel) : Net ι × Bool :=
  if ok then
    ({ s with queue := fun i => if s.subscribed i x.address then s.queue i ++ [x] else s.queue i },
      decide (∃ i, s.subscribed i x.address = true))
  else (s, false)

/-- `MessagesManager::store`, with the id of the row if the database took it. -/
def store (s : Net ι) (ok : Option UInt64) (x : Parcel) (registrationid : UInt32) : Net ι :=
  match ok with
  | none => s
  | some id =>
      let row := (x, storedMessage id x.address registrationid x.envelope)
      { s with mailbox := Function.update s.mailbox x.address (s.mailbox x.address ++ [row]) }

end Net

/-- The next atomic step of a fiber. -/
def deliveryNext (s : Net ι) (k : DeliveryTask) (e : Answer) : Net ι × List DeliveryTask :=
  match k with
  | .sendNext done [] => ({ s with accepted := s.accepted ++ done }, [])
  | .sendNext done (x :: todo) =>
      let (s', received) := s.publish e.redisOk x
      if received || x.isNoise then (s', [.sendNext (done ++ [x]) todo])
      else (s', [.sendStore x done todo])
  | .sendStore x done todo =>
      -- `sendMessage` does not look at the result of `sendLocalMessage`
      (s.store e.storeOk x x.registrationid, [.sendNext (done ++ [x]) todo])
  | .prepare x => if prepareP2p e.auth then (s, [.awaiting x]) else (s, [])
  | .awaiting x =>
      if successful e.status then ({ s with acked := s.acked ++ [x] }, [.answered x e.status])
      else (s, [.answered x e.status])
  | .answered x status =>
      match handleP2p e.auth status x.envelope.type none false with
      | .stop => (s, [])
      | .acked _ _ => (s, [])
      | .republish d => (s, [.republish x d])
      | .restore d => (s, [.restore x d])
  | .republish x d =>
      let (s', received) := s.publish e.redisOk x
      if received then (s', []) else (s', [.restore x d])
  | .restore x d => (s.store e.storeOk x d.registrationid, [])

/-- `dispatchMessages` and `onDispatchRedisMessage` on a DELIVER message. -/
def deliver (s : Net ι) (i : ι) : Option (Net ι × List DeliveryTask) :=
  match s.queue i with
  | [] => none
  | x :: q =>
      let s' := { s with queue := Function.update s.queue i q }
      match s.channel i x.address with
      | some true => some (s', [.prepare x])
      | some false => some (s', [])
      | none => some (s', [])

/-- The steps of the environment. -/
def deliveryEnv (s : Net ι) : NetEvent ι → Option (Net ι × List DeliveryTask)
  | .send xs => some (s, [.sendNext [] xs])
  | .deliver i => deliver s i
  | .setSubscribed i a b =>
      let onServer := Function.update (s.subscribed i) a b
      some ({ s with subscribed := Function.update s.subscribed i onServer }, [])
  | .setChannel i a c =>
      let onServer := Function.update (s.channel i) a c
      some ({ s with channel := Function.update s.channel i onServer }, [])
  | .fetch x registrationid id =>
      let row := (x, storedMessage id x.address registrationid x.envelope)
      if row ∈ s.mailbox x.address then
        some ({ s with
          mailbox := Function.update s.mailbox x.address ((s.mailbox x.address).erase row)
          acked := s.acked ++ [x] }, [])
      else none

def deliverySystem (ι : Type) [Fintype ι] [DecidableEq ι] :
    CallSystem (Net ι) DeliveryTask Answer (NetEvent ι) where
  next s k e := some (deliveryNext s k e)
  env p h := deliveryEnv p.shared h

def deliveryInit : Pool (Net ι) DeliveryTask := ⟨Net.initial, []⟩

end System

/-! ## Where a message is -/

section Property

variable {ι : Type}

/-- A fiber of the receiver's side that has the message and has not seen it
acknowledged. -/
def DeliveryTask.carries (x : Parcel) : DeliveryTask → Bool
  | prepare y | awaiting y | republish y _ | restore y _ => y = x
  | answered y status => y = x && !successful status
  | sendNext _ _ | sendStore _ _ _ => false

/-- Stored for its recipient. -/
def HeldFor (s : Net ι) (x : Parcel) : Prop :=
  ∃ id reg, (x, storedMessage id x.address reg x.envelope) ∈ s.mailbox x.address

/-- Published and not yet handled, or with a fiber that sends it, waits for the
response or handles it. -/
def InFlight (p : Pool (Net ι) DeliveryTask) (x : Parcel) : Prop :=
  (∃ i, x ∈ p.shared.queue i) ∨ ∃ k ∈ p.calls, k.carries x = true

def Tracked (p : Pool (Net ι) DeliveryTask) (x : Parcel) : Prop :=
  x ∈ p.shared.acked ∨ HeldFor p.shared x ∨ InFlight p x

/-! ## The condition -/

/-- A fiber step does not take one of the branches that drop a message that is
not NOISE: the device is authorised and its key can encrypt when the request is
prepared; the device is authorised when a failure is handled; the database
takes what is stored. -/
def reliableTask (k : DeliveryTask) (e : Answer) : Bool :=
  match k with
  | .sendStore x _ _ => x.isNoise || e.storeOk.isSome
  | .prepare x => x.isNoise || prepareP2p e.auth
  | .answered x status => x.isNoise || successful status || e.auth.isSome
  | .restore x _ => x.isNoise || e.storeOk.isSome
  | _ => true

/-- A message that is not NOISE is handled only while a channel is registered
and available for its address. -/
def reliableEvent (s : Net ι) : NetEvent ι → Bool
  | .deliver i =>
      match s.queue i with
      | [] => true
      | x :: _ => x.isNoise || s.channel i x.address = some true
  | _ => true

def Reliable : Pool (Net ι) DeliveryTask → Sched Answer (NetEvent ι) → Prop :=
  CallSystem.allow (fun _ k e => reliableTask k e = true)
    (fun p h => reliableEvent p.shared h = true)

/-- The messages a running `sendMessage` has dealt with. -/
def DeliveryTask.sent : DeliveryTask → List Parcel
  | sendNext done _ | sendStore _ done _ => done
  | _ => []

/-- Every message that was accepted, or that a `sendMessage` has dealt with, is
accounted for. -/
def DeliveryInv (p : Pool (Net ι) DeliveryTask) : Prop :=
  (∀ x ∈ p.shared.accepted, x.isNoise = false → Tracked p x) ∧
  ∀ k ∈ p.calls, ∀ x ∈ k.sent, x.isNoise = false → Tracked p x

end Property

/-! ## One step of a fiber -/

section Step

variable {ι : Type}

theorem store_frame (s : Net ι) (ok : Option UInt64) (x : Parcel) (reg : UInt32) :
    (s.store ok x reg).acked = s.acked ∧ (s.store ok x reg).queue = s.queue ∧
    (s.store ok x reg).accepted = s.accepted := by
  cases ok <;> exact ⟨rfl, rfl, rfl⟩

theorem store_mailbox {s : Net ι} {ok : Option UInt64} {x : Parcel} {reg : UInt32}
    {a : DispatchAddress} {row : Parcel × StoredMessage} (h : row ∈ s.mailbox a) :
    row ∈ (s.store ok x reg).mailbox a := by
  cases ok with
  | none => exact h
  | some id =>
      simp only [Net.store]
      by_cases ha : a = x.address
      · subst ha
        rw [Function.update_self]
        exact List.mem_append_left _ h
      · rwa [Function.update_of_ne ha]

theorem store_held {s : Net ι} {ok : Option UInt64} {x : Parcel} {reg : UInt32}
    (h : ok.isSome = true) : HeldFor (s.store ok x reg) x := by
  rcases Option.isSome_iff_exists.mp h with ⟨id, rfl⟩
  refine ⟨id, reg, ?_⟩
  simp [Net.store]

variable [Fintype ι]

theorem publish_queue {s : Net ι} {ok : Bool} {x y : Parcel} {i : ι} (h : y ∈ s.queue i) :
    y ∈ (s.publish ok x).1.queue i := by
  unfold Net.publish
  split
  · simp only
    split
    · exact List.mem_append_left _ h
    · exact h
  · exact h

/-- A publish that was received is in some queue. -/
theorem publish_received {s : Net ι} {ok : Bool} {x : Parcel} (h : (s.publish ok x).2 = true) :
    ∃ i, x ∈ (s.publish ok x).1.queue i := by
  unfold Net.publish at h ⊢
  split at h
  · rename_i hok
    rcases of_decide_eq_true h with ⟨i, hi⟩
    refine ⟨i, ?_⟩
    simp [hok, hi]
  · cases h

theorem publish_frame (s : Net ι) (ok : Bool) (x : Parcel) :
    (s.publish ok x).1.acked = s.acked ∧ (s.publish ok x).1.mailbox = s.mailbox ∧
    (s.publish ok x).1.accepted = s.accepted := by
  unfold Net.publish
  split <;> exact ⟨rfl, rfl, rfl⟩

/-- A fiber step takes nothing out of a queue, a mailbox or the answered
messages. -/
theorem deliveryNext_mono (s : Net ι) (k : DeliveryTask) (e : Answer) (x : Parcel) :
    (x ∈ s.acked → x ∈ (deliveryNext s k e).1.acked) ∧
    (HeldFor s x → HeldFor (deliveryNext s k e).1 x) ∧
    ∀ i, x ∈ s.queue i → x ∈ (deliveryNext s k e).1.queue i := by
  have hpub : ∀ y, (x ∈ s.acked → x ∈ (s.publish e.redisOk y).1.acked) ∧
      (HeldFor s x → HeldFor (s.publish e.redisOk y).1 x) ∧
      ∀ i, x ∈ s.queue i → x ∈ (s.publish e.redisOk y).1.queue i := by
    intro y
    rcases publish_frame s e.redisOk y with ⟨hacked, hmail, -⟩
    refine ⟨?_, ?_, fun i => publish_queue⟩
    · rw [hacked]
      exact id
    · unfold HeldFor
      rw [hmail]
      exact id
  have hstore : ∀ y reg, (x ∈ s.acked → x ∈ (s.store e.storeOk y reg).acked) ∧
      (HeldFor s x → HeldFor (s.store e.storeOk y reg) x) ∧
      ∀ i, x ∈ s.queue i → x ∈ (s.store e.storeOk y reg).queue i := by
    intro y reg
    rcases store_frame s e.storeOk y reg with ⟨hacked, hqueue, -⟩
    refine ⟨?_, ?_, ?_⟩
    · rw [hacked]
      exact id
    · rintro ⟨id, r, hrow⟩
      exact ⟨id, r, store_mailbox hrow⟩
    · rw [hqueue]
      exact fun i => id
  have hsame : (x ∈ s.acked → x ∈ s.acked) ∧ (HeldFor s x → HeldFor s x) ∧
      ∀ i, x ∈ s.queue i → x ∈ s.queue i := ⟨id, id, fun _ => id⟩
  cases k with
  | sendNext done todo =>
      cases todo with
      | nil => exact hsame
      | cons y todo =>
          simp only [deliveryNext]
          split <;> exact hpub y
  | sendStore y done todo => exact hstore y y.registrationid
  | prepare y =>
      simp only [deliveryNext]
      split <;> exact hsame
  | awaiting y =>
      simp only [deliveryNext]
      split
      · exact ⟨fun h => List.mem_append_left _ h, id, fun _ => id⟩
      · exact hsame
  | answered y status =>
      simp only [deliveryNext]
      split <;> exact hsame
  | republish y d =>
      simp only [deliveryNext]
      split <;> exact hpub y
  | restore y d => exact hstore y d.registrationid

/-- Where a message goes that the stepping fiber carries. -/
theorem carries_next {s : Net ι} {k : DeliveryTask} {e : Answer} {x : Parcel}
    (hk : k.carries x = true) (hnoise : x.isNoise = false) (hcond : reliableTask k e = true) :
    x ∈ (deliveryNext s k e).1.acked ∨ HeldFor (deliveryNext s k e).1 x ∨
    (∃ i, x ∈ (deliveryNext s k e).1.queue i) ∨
    ∃ k' ∈ (deliveryNext s k e).2, k'.carries x = true := by
  cases k with
  | sendNext done todo => cases hk
  | sendStore y done todo => cases hk
  | prepare y =>
      obtain rfl : y = x := of_decide_eq_true hk
      have hprep : prepareP2p e.auth = true := by simpa [reliableTask, hnoise] using hcond
      refine Or.inr (Or.inr (Or.inr ⟨.awaiting y, ?_, ?_⟩))
      · simp [deliveryNext, hprep]
      · simp [DeliveryTask.carries]
  | awaiting y =>
      obtain rfl : y = x := of_decide_eq_true hk
      by_cases hstatus : successful e.status = true
      · left
        simp [deliveryNext, hstatus]
      · refine Or.inr (Or.inr (Or.inr ⟨.answered y e.status, ?_, ?_⟩))
        · simp [deliveryNext, hstatus]
        · simp [DeliveryTask.carries, hstatus]
  | answered y status =>
      simp only [DeliveryTask.carries, Bool.and_eq_true, decide_eq_true_eq,
        Bool.not_eq_true'] at hk
      rcases hk with ⟨rfl, hstatus⟩
      -- the device is authorised, so the failure is handled
      have hauth : e.auth.isSome = true := by
        simpa [reliableTask, hnoise, hstatus] using hcond
      rcases Option.isSome_iff_exists.mp hauth with ⟨d, hd⟩
      have htype : y.envelope.type ≠ .noise := by simpa [Parcel.isNoise] using hnoise
      by_cases hclosed : status = connectionClosedWithoutResponse
      · subst hclosed
        refine Or.inr (Or.inr (Or.inr ⟨.republish y d, ?_, ?_⟩))
        · simp [deliveryNext, handleP2p, hd, hstatus, htype]
        · simp [DeliveryTask.carries]
      · refine Or.inr (Or.inr (Or.inr ⟨.restore y d, ?_, ?_⟩))
        · simp [deliveryNext, handleP2p, hd, hstatus, htype, hclosed]
        · simp [DeliveryTask.carries]
  | republish y d =>
      obtain rfl : y = x := of_decide_eq_true hk
      by_cases hrec : (s.publish e.redisOk y).2 = true
      · refine Or.inr (Or.inr (Or.inl ?_))
        simpa [deliveryNext, hrec] using publish_received hrec
      · refine Or.inr (Or.inr (Or.inr ⟨.restore y d, ?_, ?_⟩))
        · simp [deliveryNext, hrec]
        · simp [DeliveryTask.carries]
  | restore y d =>
      obtain rfl : y = x := of_decide_eq_true hk
      have hok : e.storeOk.isSome = true := by simpa [reliableTask, hnoise] using hcond
      exact Or.inr (Or.inl (store_held hok))

/-- A message a `sendMessage` has just dealt with is received or stored. -/
theorem sent_next {s : Net ι} {k k' : DeliveryTask} {e : Answer} {x : Parcel}
    (hk' : k' ∈ (deliveryNext s k e).2) (hx : x ∈ k'.sent) (hnoise : x.isNoise = false)
    (hcond : reliableTask k e = true) :
    x ∈ k.sent ∨ HeldFor (deliveryNext s k e).1 x ∨
    ∃ i, x ∈ (deliveryNext s k e).1.queue i := by
  cases k with
  | sendNext done todo =>
      cases todo with
      | nil => cases hk'
      | cons y todo =>
          by_cases hrec : (s.publish e.redisOk y).2 = true
          · simp only [deliveryNext, hrec, Bool.true_or, if_true, List.mem_singleton] at hk' ⊢
            subst hk'
            rcases List.mem_append.mp hx with hx | hx
            · exact Or.inl hx
            · rw [List.mem_singleton.mp hx]
              exact Or.inr (Or.inr (publish_received hrec))
          · left
            by_cases hy : y.isNoise = true
            · -- NOISE that nobody received is done with
              simp only [deliveryNext, hrec, hy, Bool.or_true, if_true, List.mem_singleton] at hk'
              subst hk'
              rcases List.mem_append.mp hx with hx | hx
              · exact hx
              · rw [List.mem_singleton.mp hx, hy] at hnoise
                cases hnoise
            · simp [deliveryNext, hrec, hy] at hk'
              subst hk'
              exact hx
  | sendStore y done todo =>
      rw [List.mem_singleton.mp hk'] at hx
      rcases List.mem_append.mp hx with hx | hx
      · exact Or.inl hx
      · obtain rfl : x = y := List.mem_singleton.mp hx
        have hok : e.storeOk.isSome = true := by simpa [reliableTask, hnoise] using hcond
        exact Or.inr (Or.inl (store_held hok))
  | prepare y =>
      simp only [deliveryNext] at hk'
      split at hk'
      · rw [List.mem_singleton.mp hk'] at hx
        cases hx
      · cases hk'
  | awaiting y =>
      simp only [deliveryNext] at hk'
      split at hk' <;>
        rw [List.mem_singleton.mp hk'] at hx <;>
        cases hx
  | answered y status =>
      simp only [deliveryNext] at hk'
      split at hk'
      · cases hk'
      · cases hk'
      · rw [List.mem_singleton.mp hk'] at hx
        cases hx
      · rw [List.mem_singleton.mp hk'] at hx
        cases hx
  | republish y d =>
      simp only [deliveryNext] at hk'
      split at hk'
      · cases hk'
      · rw [List.mem_singleton.mp hk'] at hx
        cases hx
  | restore y d => cases hk'

/-- `sendMessage` returns 200 for the messages it has dealt with. -/
theorem accepted_next {s : Net ι} {k : DeliveryTask} {e : Answer} {x : Parcel}
    (hx : x ∈ (deliveryNext s k e).1.accepted) : x ∈ s.accepted ∨ x ∈ k.sent := by
  cases k with
  | sendNext done todo =>
      cases todo with
      | nil => exact List.mem_append.mp hx
      | cons y todo =>
          left
          rw [← (publish_frame s e.redisOk y).2.2]
          simp only [deliveryNext] at hx
          split at hx <;> exact hx
  | sendStore y done todo =>
      left
      rwa [← (store_frame s e.storeOk y y.registrationid).2.2]
  | prepare y =>
      left
      simp only [deliveryNext] at hx
      split at hx <;> exact hx
  | awaiting y =>
      left
      simp only [deliveryNext] at hx
      split at hx <;> exact hx
  | answered y status =>
      left
      simp only [deliveryNext] at hx
      split at hx <;> exact hx
  | republish y d =>
      left
      rw [← (publish_frame s e.redisOk y).2.2]
      simp only [deliveryNext] at hx
      split at hx <;> exact hx
  | restore y d =>
      left
      rwa [← (store_frame s e.storeOk y d.registrationid).2.2]

/-- A fiber step keeps every message accounted for. -/
theorem tracked_next {p q : Pool (Net ι) DeliveryTask} {k : DeliveryTask}
    {rest : List DeliveryTask} {e : Answer} {x : Parcel} (hp : p.calls.Perm (k :: rest))
    (hs : q.shared = (deliveryNext p.shared k e).1)
    (hq : q.calls.Perm ((deliveryNext p.shared k e).2 ++ rest))
    (hcond : reliableTask k e = true) (hnoise : x.isNoise = false) (h : Tracked p x) :
    Tracked q x := by
  rcases deliveryNext_mono p.shared k e x with ⟨hacked, hheld, hqueue⟩
  rw [← hs] at hacked hheld hqueue
  rcases h with h | h | ⟨i, h⟩ | ⟨k', hk', hc⟩
  · exact Or.inl (hacked h)
  · exact Or.inr (Or.inl (hheld h))
  · exact Or.inr (Or.inr (Or.inl ⟨i, hqueue i h⟩))
  · rcases List.mem_cons.mp (hp.mem_iff.mp hk') with rfl | hk'
    · rcases carries_next (s := p.shared) hc hnoise hcond with h | h | h | ⟨k'', hk'', hc⟩
      · rw [← hs] at h
        exact Or.inl h
      · rw [← hs] at h
        exact Or.inr (Or.inl h)
      · rw [← hs] at h
        exact Or.inr (Or.inr (Or.inl h))
      · exact Or.inr (Or.inr (Or.inr ⟨k'', hq.mem_iff.mpr (List.mem_append_left _ hk''), hc⟩))
    · exact Or.inr (Or.inr (Or.inr ⟨k', hq.mem_iff.mpr (List.mem_append_right _ hk'), hc⟩))

theorem deliveryInv_next {p q : Pool (Net ι) DeliveryTask} {k : DeliveryTask}
    {rest : List DeliveryTask} {e : Answer} (hinv : DeliveryInv p)
    (hp : p.calls.Perm (k :: rest)) (hs : q.shared = (deliveryNext p.shared k e).1)
    (hq : q.calls.Perm ((deliveryNext p.shared k e).2 ++ rest))
    (hcond : reliableTask k e = true) : DeliveryInv q := by
  have hkeep : ∀ x, x.isNoise = false → Tracked p x → Tracked q x :=
    fun x hnoise => tracked_next hp hs hq hcond hnoise
  have hk : k ∈ p.calls := hp.mem_iff.mpr List.mem_cons_self
  constructor
  · intro x hx hnoise
    rw [hs] at hx
    rcases accepted_next hx with hx | hx
    · exact hkeep x hnoise (hinv.1 x hx hnoise)
    · exact hkeep x hnoise (hinv.2 k hk x hx hnoise)
  · intro k' hk' x hx hnoise
    rcases List.mem_append.mp (hq.mem_iff.mp hk') with hk' | hk'
    · rcases sent_next hk' hx hnoise hcond with hx | hx | hx
      · exact hkeep x hnoise (hinv.2 k hk x hx hnoise)
      · rw [← hs] at hx
        exact Or.inr (Or.inl hx)
      · rw [← hs] at hx
        exact Or.inr (Or.inr (Or.inl hx))
    · have hk'' : k' ∈ p.calls := hp.mem_iff.mpr (List.mem_cons_of_mem _ hk')
      exact hkeep x hnoise (hinv.2 k' hk'' x hx hnoise)

end Step

/-! ## One step of the environment -/

section Env

variable {ι : Type} [DecidableEq ι]

/-- Handling a message: it is posted to the channel, and the others wait. -/
theorem deliver_tracked {p : Pool (Net ι) DeliveryTask} {i : ι} {s : Net ι}
    {ks : List DeliveryTask} {x : Parcel} (hstep : deliver p.shared i = some (s, ks))
    (hcond : reliableEvent p.shared (.deliver i) = true) (hnoise : x.isNoise = false)
    (h : Tracked p x) : Tracked ⟨s, p.calls ++ ks⟩ x := by
  unfold deliver at hstep
  split at hstep
  · cases hstep
  · rename_i y q hq
    have hframe : s.acked = p.shared.acked ∧ s.mailbox = p.shared.mailbox ∧
        s.queue = Function.update p.shared.queue i q := by
      split at hstep <;> cases hstep <;> exact ⟨rfl, rfl, rfl⟩
    rcases hframe with ⟨hacked, hmail, hqueue⟩
    rcases h with h | h | ⟨j, h⟩ | ⟨k, hk, hc⟩
    · left
      show x ∈ s.acked
      rwa [hacked]
    · right; left
      show HeldFor s x
      unfold HeldFor
      rwa [hmail]
    · right; right
      by_cases hj : j = i
      · subst hj
        rw [hq] at h
        rcases List.mem_cons.mp h with rfl | h
        · -- the message itself: a channel is available and takes it
          have hchan : p.shared.channel j x.address = some true := by
            simpa [reliableEvent, hq, hnoise] using hcond
          rw [hchan] at hstep
          cases hstep
          refine Or.inr ⟨.prepare x, ?_, ?_⟩
          · exact List.mem_append_right _ (List.mem_singleton_self _)
          · simp [DeliveryTask.carries]
        · refine Or.inl ⟨j, ?_⟩
          show x ∈ s.queue j
          rwa [hqueue, Function.update_self]
      · refine Or.inl ⟨j, ?_⟩
        show x ∈ s.queue j
        rwa [hqueue, Function.update_of_ne hj]
    · exact Or.inr (Or.inr (Or.inr ⟨k, List.mem_append_left _ hk, hc⟩))

/-- A stored message leaves the mailbox when its client has it. -/
theorem fetch_tracked {p : Pool (Net ι) DeliveryTask} {y x : Parcel} {reg : UInt32} {id : UInt64}
    {s : Net ι} {ks : List DeliveryTask}
    (hstep : deliveryEnv p.shared (.fetch y reg id) = some (s, ks)) (h : Tracked p x) :
    Tracked ⟨s, p.calls ++ ks⟩ x := by
  simp only [deliveryEnv] at hstep
  split at hstep
  · cases hstep
    rcases h with h | ⟨id', reg', hrow⟩ | h | ⟨k, hk, hc⟩
    · exact Or.inl (List.mem_append_left _ h)
    · by_cases hxy : x = y
      · left
        rw [hxy]
        exact List.mem_append_right _ (List.mem_singleton_self _)
      · refine Or.inr (Or.inl ⟨id', reg', ?_⟩)
        show _ ∈ Function.update p.shared.mailbox y.address _ x.address
        have hne : (x, storedMessage id' x.address reg' x.envelope) ≠
            (y, storedMessage id y.address reg y.envelope) := by
          intro heq
          exact hxy (congrArg Prod.fst heq)
        by_cases haddr : x.address = y.address
        · rw [haddr] at hrow hne ⊢
          rw [Function.update_self]
          exact (List.mem_erase_of_ne hne).mpr hrow
        · rwa [Function.update_of_ne haddr]
    · exact Or.inr (Or.inr (Or.inl h))
    · exact Or.inr (Or.inr (Or.inr ⟨k, List.mem_append_left _ hk, hc⟩))
  · cases hstep

theorem deliveryInv_env {p : Pool (Net ι) DeliveryTask} {h : NetEvent ι} {s : Net ι}
    {ks : List DeliveryTask} (hinv : DeliveryInv p) (hcond : reliableEvent p.shared h = true)
    (hstep : deliveryEnv p.shared h = some (s, ks)) : DeliveryInv ⟨s, p.calls ++ ks⟩ := by
  have hkeep : ∀ x, x.isNoise = false → Tracked p x → Tracked ⟨s, p.calls ++ ks⟩ x := by
    intro x hnoise ht
    cases h with
    | deliver i => exact deliver_tracked hstep hcond hnoise ht
    | fetch y reg id => exact fetch_tracked hstep ht
    | send xs | setSubscribed i a b | setChannel i a c =>
        cases hstep
        rcases ht with ht | ht | ht | ⟨k, hk, hc⟩
        · exact Or.inl ht
        · exact Or.inr (Or.inl ht)
        · exact Or.inr (Or.inr (Or.inl ht))
        · exact Or.inr (Or.inr (Or.inr ⟨k, List.mem_append_left _ hk, hc⟩))
  -- nothing is accepted here, and the calls that begin have sent nothing
  have hnew : s.accepted = p.shared.accepted ∧ ∀ k ∈ ks, k.sent = [] := by
    cases h with
    | deliver i =>
        simp only [deliveryEnv, deliver] at hstep
        split at hstep
        · cases hstep
        · split at hstep <;> cases hstep <;> simp [DeliveryTask.sent]
    | fetch y reg id =>
        simp only [deliveryEnv] at hstep
        split at hstep
        · cases hstep
          simp
        · cases hstep
    | send xs =>
        cases hstep
        simp [DeliveryTask.sent]
    | setSubscribed i a b | setChannel i a c =>
        cases hstep
        simp
  constructor
  · intro x hx hnoise
    have hx' : x ∈ p.shared.accepted := by rwa [← hnew.1]
    exact hkeep x hnoise (hinv.1 x hx' hnoise)
  · intro k hk x hx hnoise
    rcases List.mem_append.mp hk with hk | hk
    · exact hkeep x hnoise (hinv.2 k hk x hx hnoise)
    · rw [hnew.2 k hk] at hx
      cases hx

end Env

/-! ## Every run -/

section Runs

variable {ι : Type} [Fintype ι] [DecidableEq ι]

theorem deliveryInv_run {ls : List (Sched Answer (NetEvent ι))} {p : Pool (Net ι) DeliveryTask}
    (hrun : (deliverySystem ι).machine.run deliveryInit ls = some p)
    (hok : (deliverySystem ι).machine.Meets Reliable deliveryInit ls) : DeliveryInv p := by
  refine (deliverySystem ι).run_invariant DeliveryInv ?_ ?_ ?_ hok hrun
  · intro p q k rest e s ks hinv hp hcond hnext hs hq
    have hnext' : deliveryNext p.shared k e = (s, ks) := Option.some.inj hnext
    rw [← hs] at hnext'
    exact deliveryInv_next hinv hp (by rw [hnext']) (by rw [hnext']; exact hq) hcond
  · intro p h s ks hinv hcond henv
    exact deliveryInv_env hinv hcond henv
  · constructor
    · intro x hx
      cases hx
    · intro k hk
      cases hk

/-- **No accepted message is lost.** In every run that meets `Reliable`, every
message that is not NOISE and whose `sendMessage` returned 200 is acknowledged
by its recipient, stored for it, or in flight. -/
theorem no_accepted_message_lost (ls : List (Sched Answer (NetEvent ι)))
    (p : Pool (Net ι) DeliveryTask)
    (hrun : (deliverySystem ι).machine.run deliveryInit ls = some p)
    (hok : (deliverySystem ι).machine.Meets Reliable deliveryInit ls)
    (x : Parcel) (hx : x ∈ p.shared.accepted) (hnoise : x.envelope.type ≠ .noise) :
    x ∈ p.shared.acked ∨ HeldFor p.shared x ∨ InFlight p x := by
  have hinv : DeliveryInv p := deliveryInv_run hrun hok
  exact hinv.1 x hx (by simpa [Parcel.isNoise] using hnoise)

instance (p : Pool (Net ι) DeliveryTask) (l : Sched Answer (NetEvent ι)) :
    Decidable (Reliable p l) :=
  inferInstanceAs (Decidable (CallSystem.allow _ _ p l))

end Runs

/-! ## One message, one server -/

def deviceD : DispatchAddress := ⟨ascii ['d'], 1⟩

def hello : Parcel where
  address := deviceD
  registrationid := 7
  tag := 0
  envelope := ⟨.other 1, 1000, ascii ['e'], 1, 5, [], [], ascii ['h', 'i'], [], 0⟩

/-- A device with the given signaling key. -/
def phone (key : Bytes) : Device := ⟨1, 7, key, ⟨.ios, 2000⟩⟩

/-- Redis, the database and the session all work; the client is gone. -/
def closed : Answer :=
  ⟨true, some (phone (List.replicate 52 0)), connectionClosedWithoutResponse, some 1⟩

/-- The message is sent to a connected client that goes away: it is published
again, nobody receives it, and it is stored. -/
def returned : List (Sched Answer (NetEvent Unit)) :=
  [.env (.setSubscribed () deviceD true), .env (.setChannel () deviceD (some true)),
   .env (.send [hello]), .call 0 closed, .call 0 closed, .env (.deliver ()),
   .call 0 closed, .call 0 closed, .call 0 closed, .env (.setSubscribed () deviceD false),
   .call 0 closed, .call 0 closed]

theorem no_accepted_message_lost_returned :
    ∃ p, (deliverySystem Unit).machine.run deliveryInit returned = some p ∧
      hello ∈ p.shared.accepted ∧
      (hello ∈ p.shared.acked ∨ HeldFor p.shared hello ∨ InFlight p hello) := by
  have hsome : ((deliverySystem Unit).machine.run deliveryInit returned).isSome := by decide
  have hok : (deliverySystem Unit).machine.Meets Reliable deliveryInit returned := by decide
  have hview : ((deliverySystem Unit).machine.run deliveryInit returned).map
      (fun p => p.shared.accepted) = some [hello] := by decide
  rcases Option.isSome_iff_exists.mp hsome with ⟨p, hp⟩
  rw [hp, Option.map_some, Option.some.injEq] at hview
  have hx : hello ∈ p.shared.accepted := by
    rw [hview]
    exact List.mem_singleton_self _
  exact ⟨p, hp, hx, no_accepted_message_lost returned p hp hok hello hx (by decide)⟩

/-- The device has no usable signaling key. -/
def keyless : Answer := ⟨true, some (phone []), 200, some 1⟩

/-- The message is published to a connected client that it cannot be encrypted
for. -/
def unencrypted : List (Sched Answer (NetEvent Unit)) :=
  [.env (.setSubscribed () deviceD true), .env (.setChannel () deviceD (some true)),
   .env (.send [hello]), .call 0 keyless, .call 0 keyless, .env (.deliver ()), .call 0 keyless]

/-- Without the condition an accepted message can vanish. -/
theorem message_dropped_unencrypted :
    ¬ ∀ (ls : List (Sched Answer (NetEvent Unit))) (p : Pool (Net Unit) DeliveryTask),
      (deliverySystem Unit).machine.run deliveryInit ls = some p →
      ∀ x ∈ p.shared.accepted, x.envelope.type ≠ .noise →
        x ∈ p.shared.acked ∨ HeldFor p.shared x ∨ InFlight p x := by
  intro hclaim
  have hsome : ((deliverySystem Unit).machine.run deliveryInit unencrypted).isSome := by decide
  have hview : ((deliverySystem Unit).machine.run deliveryInit unencrypted).map (fun p =>
      (p.shared.accepted, p.shared.acked, p.shared.mailbox deviceD, p.shared.queue (), p.calls)) =
        some ([hello], [], [], [], []) := by rfl
  rcases Option.isSome_iff_exists.mp hsome with ⟨p, hp⟩
  rw [hp, Option.map_some, Option.some.injEq] at hview
  simp only [Prod.mk.injEq] at hview
  rcases hview with ⟨haccepted, hacked, hmail, hqueue, hcalls⟩
  have hx : hello ∈ p.shared.accepted := by
    rw [haccepted]
    exact List.mem_singleton_self _
  rcases hclaim unencrypted p hp hello hx (by decide) with h | ⟨id, reg, h⟩ | ⟨i, h⟩ | ⟨k, hk, -⟩
  · rw [hacked] at h
    cases h
  · rw [show hello.address = deviceD from rfl, hmail] at h
    cases h
  · rw [hqueue] at h
    cases h
  · rw [hcalls] at hk
    cases hk

end BcmServer.Dispatcher
