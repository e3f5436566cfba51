import BcmServer.Dispatcher.Manager
import Mathlib.Data.Fintype.Basic

/-!
# BcmServer.Dispatcher.Cluster — one address, many servers

Every server has its own `DispatchManager`; all of them share one redis. A
`subscribe` publishes CONNECTED with the identity of its new channel, and a
channel that receives a CONNECTED with another identity gives up. On one server
the replaced channel is told directly.

* `two_live_channels`: two devices that connect at the same moment both stay
  up. Each publishes before either has subscribed, so nobody hears anybody.
* `single_live_channel`: in every interleaving that avoids three races
  (`Orderly`) at most one channel of the address is available once the calls
  have returned and every CONNECTED has been handled.

The invariant names the last publisher. Any other server with no CONNECTED of
its own to publish has been superseded: whatever is available on it, or is
about to become available, has the last publisher's CONNECTED still ahead in
its queue.
-/

namespace BcmServer.Dispatcher

open BcmServer.Util BcmServer.Lts

/-- A server with its dispatch thread: `handling` is the channel the thread has
looked up and the message it is about to give to it. -/
structure Node where
  server : Server
  handling : Option (Identity × Event)

namespace Node

def initial : Node := ⟨Server.initial, none⟩

/-- Redis delivers a publish on the channel of `a` to a subscribed server. -/
def receive (nd : Node) (a : DispatchAddress) (e : Event) : Node :=
  if nd.server.subChans a.getSerialized then
    { nd with server := { nd.server with queue := nd.server.queue ++ [e] } }
  else nd

/-- `dispatchMessages` takes the next message and looks up its channel. -/
def take (nd : Node) : Option Node :=
  match nd.handling, nd.server.queue with
  | none, e :: q =>
      some ⟨{ nd.server with queue := q }, (nd.server.dispatchers e.address).map fun d => (d, e)⟩
  | _, _ => none

/-- `dispatchMessages` gives the message to the channel it found. -/
def handle (nd : Node) : Option Node :=
  match nd.handling with
  | none => none
  | some (d, e) => some ⟨nd.server.handleMessage d e, none⟩

end Node

/-! ## The system -/

section System

variable {ι : Type} [DecidableEq ι]

/-- The publish of a call reaches every server subscribed at that step. -/
def publish (s : ι → Node) : Call → ι → Node
  | .subPublish b id _ => fun j => (s j).receive b (.connected b (decimal id.toNat))
  | _ => s

/-- A call of server `c.1` publishes to all servers and changes its own. -/
def clusterNext (s : ι → Node) (c : ι × Call) : (ι → Node) × List (ι × Call) :=
  let s' := publish s c.2
  let r := c.2.next (s' c.1).server
  (Function.update s' c.1 { s' c.1 with server := r.1 }, r.2.map fun k => (c.1, k))

/-- A client connects to a server, or a dispatch thread moves on. -/
inductive ClusterEvent (ι : Type) where
  | subscribe (i : ι) (id : Identity)
  | take (i : ι)
  | handle (i : ι)
deriving DecidableEq, Repr

/-- The `subscribe` calls for `a` on all servers, with the dispatch threads. -/
def clusterSystem (ι : Type) [DecidableEq ι] (a : DispatchAddress) :
    CallSystem (ι → Node) (ι × Call) Unit (ClusterEvent ι) where
  next s c _ := some (clusterNext s c)
  env p
    | .subscribe i id => some (p.shared, [(i, .subReplace a id)])
    | .take i => (p.shared i).take.map fun nd => (Function.update p.shared i nd, [])
    | .handle i => (p.shared i).handle.map fun nd => (Function.update p.shared i nd, [])

def clusterInit : Pool (ι → Node) (ι × Call) := ⟨fun _ => Node.initial, []⟩

end System

/-! ## The condition -/

namespace Call

/-- A `subscribe` of `a`, at any of its steps. -/
def isSubscribe (a : DispatchAddress) : Call → Bool
  | subReplace b _ | subPublish b _ _ | subRedis b _ _ | subStatus b _ | subKickOld b _ => b = a
  | _ => false

/-- The identity a call has yet to publish. -/
def unpublished : Call → Option Identity
  | subReplace _ id | subPublish _ id _ => some id
  | _ => none

/-- A call that has published and is about to subscribe. -/
def atRedis : Call → Bool
  | subRedis _ _ _ => true
  | _ => false

/-- The channel a call has replaced and will tell. -/
def replaced : Call → Option Identity
  | subPublish _ _ old | subRedis _ _ old | subStatus _ old | subKickOld _ old => old
  | _ => none

end Call

section Condition

variable {ι : Type} [DecidableEq ι]

/-- A call publishes only while no other server is between publishing and
subscribing, and a replaced channel is told to disconnect only while the
dispatch thread is not about to hand it a confirmation. -/
def orderlyCall (a : DispatchAddress) (p : Pool (ι → Node) (ι × Call)) : ι × Call → Bool
  | (i, .subPublish _ _ _) => p.calls.all fun c => c.1 = i || !c.2.atRedis
  | (i, .subKickOld _ (some d)) => (p.shared i).handling ≠ some (d, .subscribed a)
  | _ => true

/-- A new channel's identity is not that of a registered, or not yet published,
channel of another server. -/
def freshIdentity (a : DispatchAddress) (p : Pool (ι → Node) (ι × Call)) :
    ClusterEvent ι → Prop
  | .subscribe i id =>
      (∀ j, j ≠ i → (p.shared j).server.dispatchers a ≠ some id) ∧
      ∀ c ∈ p.calls, c.1 ≠ i → c.2.unpublished ≠ some id
  | _ => True

def Orderly (a : DispatchAddress) : Pool (ι → Node) (ι × Call) → Sched Unit (ClusterEvent ι) → Prop :=
  CallSystem.allow (fun p c _ => orderlyCall a p c = true) (freshIdentity a)

end Condition

/-! ## The invariant -/

section Invariant

variable {ι : Type}

/-- `e` is the CONNECTED of the last publisher. -/
def Kicks (a : DispatchAddress) (last : Option (ι × Identity)) (e : Event) : Prop :=
  ∃ i c, last = some (i, c) ∧ e = .connected a (decimal c.toNat)

/-- Every confirmation in the queue has an event with `P` behind it. -/
def Covered (a : DispatchAddress) (P : Event → Prop) : List Event → Prop
  | [] => True
  | e :: q => (e = .subscribed a → ∃ e' ∈ q, P e') ∧ Covered a P q

/-- A server that was overtaken by the last publisher: whatever is available on
it, or is about to be, will see that publisher's CONNECTED. -/
structure Superseded (a : DispatchAddress) (last : Option (ι × Identity)) (nd : Node) : Prop where
  other : ∀ i c, last = some (i, c) → nd.server.dispatchers a ≠ some c
  covered : Covered a (Kicks a last) nd.server.queue
  confirming : ∀ d, nd.handling = some (d, .subscribed a) →
    ∃ e ∈ nd.server.queue, Kicks a last e
  leaving : ∀ d, nd.server.dispatchers a = some d → (nd.server.channels d).available = true →
    (∃ e ∈ nd.server.queue, Kicks a last e) ∨ ∃ e, nd.handling = some (d, e) ∧ Kicks a last e

/-- The invariant of server `i`; `K` holds of the calls running on it. -/
structure NodeOk (a : DispatchAddress) (last : Option (ι × Identity)) (i : ι) (nd : Node)
    (K : Call → Prop) : Prop where
  calls : ∀ k, K k → k.isSubscribe a = true
  events : ∀ e ∈ nd.server.queue, e.address = a
  handled : ∀ d e, nd.handling = some (d, e) → e.address = a
  live : ∀ d, (nd.server.channels d).available = true ∨ nd.handling = some (d, .subscribed a) →
    nd.server.dispatchers a = some d ∨ ∃ k, K k ∧ k.replaced = some d
  quiet : nd.server.subChans a.getSerialized = false →
    .subscribed a ∉ nd.server.queue ∧ (∀ d, nd.handling ≠ some (d, .subscribed a)) ∧
    ∀ d, (nd.server.channels d).available = false
  redis : ∀ k, K k → k.atRedis = true → ∃ c, last = some (i, c)
  superseded : (∀ c, last ≠ some (i, c)) → (∀ k, K k → k.unpublished = none) →
    Superseded a last nd

/-- The identities a server has registered or is yet to publish. -/
def Held (a : DispatchAddress) (nd : Node) (K : Call → Prop) (d : Identity) : Prop :=
  nd.server.dispatchers a = some d ∨ ∃ k, K k ∧ k.unpublished = some d

/-- Every server is well, and no two hold one identity. -/
structure ClusterInv (a : DispatchAddress) (last : Option (ι × Identity)) (s : ι → Node)
    (calls : List (ι × Call)) : Prop where
  node : ∀ i, NodeOk a last i (s i) fun k => (i, k) ∈ calls
  disjoint : ∀ i j d, i ≠ j → Held a (s i) (fun k => (i, k) ∈ calls) d →
    ¬ Held a (s j) (fun k => (j, k) ∈ calls) d

/-! ## Queues of confirmations -/

theorem covered_of_notMem {a : DispatchAddress} {P : Event → Prop} {q : List Event}
    (h : .subscribed a ∉ q) : Covered a P q := by
  induction q with
  | nil => trivial
  | cons e q ih =>
      rw [List.mem_cons, not_or] at h
      exact ⟨fun he => absurd he.symm h.1, ih h.2⟩

/-- A kick at the end of the queue is behind every confirmation. -/
theorem covered_append {a : DispatchAddress} {P : Event → Prop} {q : List Event} {c : Bytes}
    (h : P (.connected a c)) : Covered a P (q ++ [.connected a c]) := by
  induction q with
  | nil => exact ⟨fun he => Event.noConfusion he, trivial⟩
  | cons e q ih =>
      refine ⟨fun _ => ⟨_, ?_, h⟩, ih⟩
      exact List.mem_append_right q (List.mem_singleton_self _)

/-! ## A call steps on its own server -/

variable {a : DispatchAddress} {last : Option (ι × Identity)} {i : ι} {nd : Node}
  {K K' R : Call → Prop}

/-- The part of a step of call `k` with successors `ks` that does not depend on
what the call does. -/
theorem nodeOk_advance {nd' : Node} {k : Call} {ks : List Call} (h : NodeOk a last i nd K)
    (hK : ∀ x, K x ↔ x = k ∨ R x) (hK' : ∀ x, K' x ↔ x ∈ ks ∨ R x)
    (hks : ∀ x ∈ ks, x.isSubscribe a = true ∧ x.atRedis = false)
    (hevents : ∀ e ∈ nd'.server.queue, e.address = a) (hhandling : nd'.handling = nd.handling)
    (havail : ∀ d, (nd'.server.channels d).available = true →
      (nd.server.channels d).available = true)
    (hlive : ∀ d, (nd'.server.channels d).available = true ∨
        nd.handling = some (d, .subscribed a) →
      nd.server.dispatchers a = some d ∨ k.replaced = some d →
      nd'.server.dispatchers a = some d ∨ ∃ x ∈ ks, x.replaced = some d)
    (hquiet : nd'.server.subChans a.getSerialized = false →
      nd.server.subChans a.getSerialized = false ∧ nd'.server.queue = nd.server.queue)
    (hsup : (∀ c, last ≠ some (i, c)) → (∀ x, K' x → x.unpublished = none) →
      Superseded a last nd') :
    NodeOk a last i nd' K' := by
  have hR : ∀ x, R x → K x := fun x hx => (hK x).mpr (Or.inr hx)
  constructor
  case calls =>
    intro x hx
    rcases (hK' x).mp hx with hx | hx
    · exact (hks x hx).1
    · exact h.calls x (hR x hx)
  case events => exact hevents
  case handled =>
    rw [hhandling]
    exact h.handled
  case live =>
    intro d hd
    rw [hhandling] at hd
    have hfrom : nd.server.dispatchers a = some d ∨ k.replaced = some d →
        nd'.server.dispatchers a = some d ∨ ∃ x, K' x ∧ x.replaced = some d := by
      intro hd'
      rcases hlive d hd hd' with hreg | ⟨x, hx, hrep⟩
      · exact Or.inl hreg
      · exact Or.inr ⟨x, (hK' x).mpr (Or.inl hx), hrep⟩
    rcases h.live d (hd.imp_left (havail d)) with hreg | ⟨x, hx, hrep⟩
    · exact hfrom (Or.inl hreg)
    · rcases (hK x).mp hx with rfl | hx
      · exact hfrom (Or.inr hrep)
      · exact Or.inr ⟨x, (hK' x).mpr (Or.inr hx), hrep⟩
  case quiet =>
    intro hsub
    rcases hquiet hsub with ⟨hsub', hqueue⟩
    rcases h.quiet hsub' with ⟨hq, hh, hav⟩
    refine ⟨by rwa [hqueue], by rwa [hhandling], ?_⟩
    intro d
    exact Bool.eq_false_iff.mpr fun hd => absurd (havail d hd) (by simp [hav d])
  case redis =>
    intro x hx hat
    rcases (hK' x).mp hx with hx | hx
    · exact absurd hat (by simp [(hks x hx).2])
    · exact h.redis x (hR x hx) hat
  case superseded => exact hsup

/-- A step that registers nothing and publishes nothing leaves the reason for
being superseded as it was. -/
theorem unpublished_none {k : Call} {ks : List Call} (hk : k.unpublished = none)
    (hK : ∀ x, K x ↔ x = k ∨ R x) (hK' : ∀ x, K' x ↔ x ∈ ks ∨ R x)
    (hnone : ∀ x, K' x → x.unpublished = none) : ∀ x, K x → x.unpublished = none := by
  intro x hx
  rcases (hK x).mp hx with rfl | hx
  · exact hk
  · exact hnone x ((hK' x).mpr (Or.inr hx))

/-- A step of a call other than the publish keeps its server well. -/
theorem nodeOk_next {k : Call} (h : NodeOk a last i nd K) (hK : ∀ x, K x ↔ x = k ∨ R x)
    (hK' : ∀ x, K' x ↔ x ∈ (k.next nd.server).2 ∨ R x)
    (hpub : ∀ b id old, k ≠ .subPublish b id old)
    (hkick : ∀ b d, k = .subKickOld b (some d) → nd.handling ≠ some (d, .subscribed a)) :
    NodeOk a last i { nd with server := (k.next nd.server).1 } K' := by
  have hk : k.isSubscribe a = true := h.calls k ((hK k).mpr (Or.inl rfl))
  cases k with
  | subReplace b id =>
      obtain rfl : b = a := by simpa [Call.isSubscribe] using hk
      refine nodeOk_advance h hK hK' ?_ h.events rfl ?_ ?_ (fun hsub => ⟨hsub, rfl⟩) ?_
      · simp [Call.next, Call.isSubscribe, Call.atRedis]
      · intro d hd
        by_cases hid : d = id
        · simp [Call.next, Server.replaceDispatcher, Server.newChannel, Server.setChannel, hid] at hd
        · simpa [Call.next, Server.replaceDispatcher, Server.newChannel, Server.setChannel, hid]
            using hd
      · -- the channel registered so far is the one the call will tell
        intro d _ hd
        rcases hd with hreg | hrep
        · exact Or.inr ⟨_, List.mem_singleton_self _, hreg⟩
        · cases hrep
      · -- the server has something to publish now
        intro _ hnone
        have hnew := hnone _ ((hK' _).mpr (Or.inl (List.mem_singleton_self _)))
        cases hnew
  | subPublish b id old => exact absurd rfl (hpub b id old)
  | subRedis b id old =>
      obtain rfl : b = a := by simpa [Call.isSubscribe] using hk
      -- a server that subscribes has just published
      rcases h.redis _ ((hK _).mpr (Or.inl rfl)) rfl with ⟨c, hc⟩
      refine nodeOk_advance h hK hK' ?_ ?_ rfl (fun _ hd => hd) ?_ ?_ ?_
      · simp [Call.next, Call.isSubscribe, Call.atRedis]
      · intro e he
        rcases List.mem_append.mp he with he | he
        · exact h.events e he
        · rw [List.mem_singleton.mp he, Event.address]
      · intro d _ hd
        rcases hd with hreg | hrep
        · exact Or.inl hreg
        · exact Or.inr ⟨_, List.mem_singleton_self _, hrep⟩
      · intro hsub
        simp [Call.next, Server.redisSubscribe] at hsub
      · exact fun hlast _ => absurd hc (hlast c)
  | subStatus b old =>
      obtain rfl : b = a := by simpa [Call.isSubscribe] using hk
      refine nodeOk_advance h hK hK' ?_ h.events rfl (fun _ hd => hd) ?_ (fun hsub => ⟨hsub, rfl⟩) ?_
      · simp [Call.next, Call.isSubscribe, Call.atRedis]
      · intro d _ hd
        rcases hd with hreg | hrep
        · exact Or.inl hreg
        · exact Or.inr ⟨_, List.mem_singleton_self _, hrep⟩
      · intro hlast hnone
        have hsup := h.superseded hlast (unpublished_none rfl hK hK' hnone)
        exact ⟨hsup.other, hsup.covered, hsup.confirming, hsup.leaving⟩
  | subKickOld b old =>
      obtain rfl : b = a := by simpa [Call.isSubscribe] using hk
      cases old with
      | none =>
          refine nodeOk_advance h hK hK' ?_ h.events rfl (fun _ hd => hd) ?_
            (fun hsub => ⟨hsub, rfl⟩) ?_
          · simp [Call.next]
          · intro d _ hd
            rcases hd with hreg | hrep
            · exact Or.inl hreg
            · cases hrep
          · exact fun hlast hnone => h.superseded hlast (unpublished_none rfl hK hK' hnone)
      | some old =>
          have havail : ∀ d, ((nd.server.onDispatchUnsubscribed old true).channels d).available =
              true → d ≠ old ∧ (nd.server.channels d).available = true := by
            intro d hd
            by_cases hold : d = old
            · simp [Server.onDispatchUnsubscribed, Server.setChannel, hold] at hd
            · exact ⟨hold, by
                simpa [Server.onDispatchUnsubscribed, Server.setChannel, hold] using hd⟩
          refine nodeOk_advance h hK hK' ?_ h.events rfl (fun d hd => (havail d hd).2) ?_
            (fun hsub => ⟨hsub, rfl⟩) ?_
          · simp [Call.next]
          · -- what is available, or about to be, is not the channel just told
            intro d hd hd'
            have hne : d ≠ old := by
              rcases hd with hav | hconf
              · exact (havail d hav).1
              · intro heq
                rw [heq] at hconf
                exact hkick _ _ rfl hconf
            rcases hd' with hreg | hrep
            · exact Or.inl hreg
            · exact absurd (Option.some.inj hrep).symm hne
          · intro hlast hnone
            have hsup := h.superseded hlast (unpublished_none rfl hK hK' hnone)
            refine ⟨hsup.other, hsup.covered, hsup.confirming, ?_⟩
            exact fun d hreg hav => hsup.leaving d hreg (havail d hav).2
  | unsDelete | unsRedis | unsChannel | kickRedis | kickDelete | kickChannel | statusOffline =>
      cases hk

/-! ## A publish reaches a server -/

theorem receive_cases (nd : Node) (e : Event) :
    (nd.server.subChans a.getSerialized = true ∧ nd.receive a e =
      { nd with server := { nd.server with queue := nd.server.queue ++ [e] } }) ∨
    (nd.server.subChans a.getSerialized = false ∧ nd.receive a e = nd) := by
  unfold Node.receive
  split
  · rename_i hsub
    exact Or.inl ⟨hsub, rfl⟩
  · rename_i hsub
    exact Or.inr ⟨Bool.eq_false_iff.mpr hsub, rfl⟩

/-- What a publish keeps, whoever publishes: all but the rules about the last
publisher. -/
theorem nodeOk_receive {last' : Option (ι × Identity)} {c : Bytes} (h : NodeOk a last i nd K)
    (hlive : ∀ x, K x → ∀ d, x.replaced = some d → ∃ y, K' y ∧ y.replaced = some d)
    (hcalls : ∀ x, K' x → x.isSubscribe a = true)
    (hredis : ∀ x, K' x → x.atRedis = true → ∃ c, last' = some (i, c))
    (hsup : (∀ c, last' ≠ some (i, c)) → (∀ x, K' x → x.unpublished = none) →
      Superseded a last' (nd.receive a (.connected a c))) :
    NodeOk a last' i (nd.receive a (.connected a c)) K' := by
  have hlive' : ∀ d, (nd.server.channels d).available = true ∨
      nd.handling = some (d, .subscribed a) →
      nd.server.dispatchers a = some d ∨ ∃ k, K' k ∧ k.replaced = some d := by
    intro d hd
    rcases h.live d hd with hreg | ⟨x, hx, hrep⟩
    · exact Or.inl hreg
    · exact Or.inr (hlive x hx d hrep)
  rcases receive_cases nd (.connected a c) with ⟨hsub, heq⟩ | ⟨hsub, heq⟩
  · rw [heq] at hsup ⊢
    refine ⟨hcalls, ?_, h.handled, hlive', ?_, hredis, hsup⟩
    · intro e he
      rcases List.mem_append.mp he with he | he
      · exact h.events e he
      · rw [List.mem_singleton.mp he, Event.address]
    · intro hfalse
      rw [hsub] at hfalse
      cases hfalse
  · rw [heq] at hsup ⊢
    exact ⟨hcalls, h.events, h.handled, hlive', h.quiet, hredis, hsup⟩

/-- Another server is superseded by the publish: if it is subscribed the
CONNECTED is at the end of its queue, and if not nothing is up on it. -/
theorem superseded_receive {j : ι} {id : Identity} (h : NodeOk a last i nd K)
    (hother : nd.server.dispatchers a ≠ some id) :
    Superseded a (some (j, id)) (nd.receive a (.connected a (decimal id.toNat))) := by
  have hkicks : Kicks a (some (j, id)) (.connected a (decimal id.toNat)) := ⟨j, id, rfl, rfl⟩
  have hother' : ∀ i c, some (j, id) = some (i, c) → nd.server.dispatchers a ≠ some c := by
    rintro i c heq
    cases heq
    exact hother
  rcases receive_cases nd (.connected a (decimal id.toNat)) with ⟨hsub, heq⟩ | ⟨hsub, heq⟩
  · rw [heq]
    have hmem : Event.connected a (decimal id.toNat) ∈
        nd.server.queue ++ [.connected a (decimal id.toNat)] :=
      List.mem_append_right _ (List.mem_singleton_self _)
    exact ⟨hother', covered_append hkicks, fun _ _ => ⟨_, hmem, hkicks⟩,
      fun _ _ _ => Or.inl ⟨_, hmem, hkicks⟩⟩
  · rw [heq]
    rcases h.quiet hsub with ⟨hqueue, hhandling, havail⟩
    refine ⟨hother', covered_of_notMem hqueue, fun d hd => absurd hd (hhandling d), ?_⟩
    intro d _ hav
    rw [havail d] at hav
    cases hav

/-! ## The dispatch thread -/

theorem nodeOk_take {nd' : Node} (h : NodeOk a last i nd K) (htake : nd.take = some nd') :
    NodeOk a last i nd' K := by
  unfold Node.take at htake
  split at htake
  · rename_i e q hnone hq
    cases htake
    have haddr : e.address = a := h.events e (by rw [hq]; exact List.mem_cons_self)
    -- the message goes to the channel that is registered now
    have hfound : ∀ d e', (nd.server.dispatchers e.address).map (fun d => (d, e)) = some (d, e') →
        nd.server.dispatchers a = some d ∧ e' = e := by
      intro d e' hd
      rcases Option.map_eq_some_iff.mp hd with ⟨d', hreg, heq⟩
      cases heq
      rw [haddr] at hreg
      exact ⟨hreg, rfl⟩
    have hqueue := h.quiet
    rw [hq] at hqueue
    refine ⟨h.calls, ?_, ?_, ?_, ?_, h.redis, ?_⟩
    · intro e' he'
      exact h.events e' (by rw [hq]; exact List.mem_cons_of_mem _ he')
    · intro d e' hd
      rw [(hfound d e' hd).2, haddr]
    · intro d hd
      rcases hd with hav | hconf
      · exact h.live d (Or.inl hav)
      · exact Or.inl (hfound d _ hconf).1
    · intro hsub
      rcases hqueue hsub with ⟨hnot, -, hav⟩
      refine ⟨fun hmem => hnot (List.mem_cons_of_mem _ hmem), ?_, hav⟩
      intro d hconf
      exact hnot (by rw [(hfound d _ hconf).2]; exact List.mem_cons_self)
    · intro hlast hpub
      have hsup := h.superseded hlast hpub
      have hcov := hsup.covered
      have hleave := hsup.leaving
      rw [hq] at hcov hleave
      refine ⟨hsup.other, hcov.2, ?_, ?_⟩
      · intro d hconf
        exact hcov.1 (hfound d _ hconf).2.symm
      · intro d hreg hav
        rcases hleave d hreg hav with ⟨e', he', hk⟩ | ⟨e', he', hk⟩
        · rcases List.mem_cons.mp he' with rfl | he'
          · -- the kick itself was taken, for the registered channel
            refine Or.inr ⟨e', ?_, hk⟩
            rw [haddr, show nd.server.dispatchers a = some d from hreg, Option.map_some]
          · exact Or.inl ⟨e', he', hk⟩
        · rw [hnone] at he'
          cases he'
  · cases htake

theorem available_onDispatchSubscribed {s : Server} {d x : Identity}
    (h : ((s.onDispatchSubscribed d).channels x).available = true) :
    x = d ∨ (s.channels x).available = true := by
  unfold Server.onDispatchSubscribed at h
  split at h
  · exact Or.inr h
  · by_cases hx : x = d
    · exact Or.inl hx
    · right
      simpa [Server.setChannel, Function.update_of_ne hx] using h

theorem available_onConnected {s : Server} {d x : Identity} {c : Bytes}
    (h : ((s.onConnected d c).channels x).available = true) :
    (s.channels x).available = true ∧ (x = d → c = [] ∨ c = decimal d.toNat) := by
  unfold Server.onConnected at h
  split at h
  · rename_i hav
    refine ⟨h, fun hx => ?_⟩
    rw [hx, hav] at h
    cases h
  · split at h
    · by_cases hx : x = d
      · simp [Server.setChannel, hx] at h
      · refine ⟨?_, fun hxd => absurd hxd hx⟩
        simpa [Server.setChannel, Function.update_of_ne hx] using h
    · rename_i hc
      exact ⟨h, fun _ => by simpa [or_iff_not_imp_left] using hc⟩

/-- Handling a message changes channels only. -/
theorem handleMessage_frame (s : Server) (d : Identity) (e : Event) :
    (s.handleMessage d e).dispatchers = s.dispatchers ∧
    (s.handleMessage d e).subChans = s.subChans ∧ (s.handleMessage d e).queue = s.queue := by
  cases e with
  | subscribed b =>
      simp only [Server.handleMessage, Server.onDispatchSubscribed]
      split <;> exact ⟨rfl, rfl, rfl⟩
  | connected b c =>
      simp only [Server.handleMessage, Server.onConnected]
      split
      · exact ⟨rfl, rfl, rfl⟩
      · split <;> exact ⟨rfl, rfl, rfl⟩

theorem nodeOk_handle {nd' : Node} (h : NodeOk a last i nd K) (hhandle : nd.handle = some nd') :
    NodeOk a last i nd' K := by
  unfold Node.handle at hhandle
  split at hhandle
  · cases hhandle
  · rename_i d e hd
    cases hhandle
    rcases handleMessage_frame nd.server d e with ⟨hdisp, hsubs, hqueue⟩
    have haddr : e.address = a := h.handled d e hd
    -- a channel that comes up was about to
    have havail : ∀ x, ((nd.server.handleMessage d e).channels x).available = true →
        (nd.server.channels x).available = true ∨ nd.handling = some (x, .subscribed a) := by
      intro x hx
      cases e with
      | subscribed b =>
          obtain rfl : b = a := haddr
          rcases available_onDispatchSubscribed hx with rfl | hav
          · exact Or.inr hd
          · exact Or.inl hav
      | connected b c => exact Or.inl (available_onConnected hx).1
    refine ⟨h.calls, ?_, ?_, ?_, ?_, h.redis, ?_⟩
    · rw [hqueue]
      exact h.events
    · intro x e' hx
      cases hx
    · intro x hx
      rw [hdisp]
      rcases hx with hx | hx
      · exact h.live x (havail x hx)
      · cases hx
    · rw [hsubs, hqueue]
      intro hsub
      rcases h.quiet hsub with ⟨hnot, hconf, hav⟩
      refine ⟨hnot, fun x hx => (nomatch hx), ?_⟩
      intro x
      refine Bool.eq_false_iff.mpr fun hx => ?_
      rcases havail x hx with hx | hx
      · rw [hav x] at hx
        cases hx
      · exact hconf x hx
    · intro hlast hpub
      have hsup := h.superseded hlast hpub
      refine ⟨?_, ?_, fun x hx => (nomatch hx), ?_⟩
      · rw [hdisp]
        exact hsup.other
      · rw [hqueue]
        exact hsup.covered
      · rw [hdisp, hqueue]
        intro x hreg hx
        left
        rcases havail x hx with hav | hconf
        · rcases hsup.leaving x hreg hav with hk | ⟨e', he', hk⟩
          · exact hk
          · -- the kick was handled, by a channel with another identity: it gave up
            exfalso
            rw [hd] at he'
            cases he'
            rcases hk with ⟨j, c, hlast', rfl⟩
            rcases (available_onConnected hx).2 rfl with hnil | heq
            · exact decimal_ne_nil _ hnil
            · have hid : c = d := UInt64.toNat_inj.mp (decimal_injective heq)
              rw [hid] at hlast'
              exact hsup.other j d hlast' hreg
        · exact hsup.confirming x hconf

/-! ## Identities -/

/-- A call registers no identity but the one it was going to publish. -/
theorem held_next {k : Call} {d : Identity} (hk : k.isSubscribe a = true)
    (hK : ∀ x, K x ↔ x = k ∨ R x) (hK' : ∀ x, K' x ↔ x ∈ (k.next nd.server).2 ∨ R x)
    (h : Held a { nd with server := (k.next nd.server).1 } K' d) : Held a nd K d := by
  have hrest : ∀ x, R x → x.unpublished = some d → Held a nd K d :=
    fun x hx hpub => Or.inr ⟨x, (hK x).mpr (Or.inr hx), hpub⟩
  have hself : k.unpublished = some d → Held a nd K d :=
    fun hpub => Or.inr ⟨k, (hK k).mpr (Or.inl rfl), hpub⟩
  rcases h with hreg | ⟨x, hx, hpub⟩
  · cases k with
    | subReplace b id =>
        obtain rfl : b = a := by simpa [Call.isSubscribe] using hk
        apply hself
        simpa [Call.next, Server.replaceDispatcher, Call.unpublished] using hreg
    | subKickOld b old => cases old <;> exact Or.inl hreg
    | subPublish b id old | subRedis b id old | subStatus b old => exact Or.inl hreg
    | unsDelete | unsRedis | unsChannel | kickRedis | kickDelete | kickChannel | statusOffline =>
        cases hk
  · rcases (hK' x).mp hx with hx | hx
    · cases k with
      | subReplace b id =>
          rw [List.mem_singleton.mp hx] at hpub
          exact hself hpub
      | subPublish b id old | subRedis b id old | subStatus b old =>
          rw [List.mem_singleton.mp hx] at hpub
          cases hpub
      | subKickOld b old => cases old <;> cases hx
      | unsDelete | unsRedis | unsChannel | kickRedis | kickDelete | kickChannel
      | statusOffline => cases hk
    · exact hrest x hx hpub

end Invariant

/-! ## One step of the cluster -/

section Step

variable {ι : Type} {a : DispatchAddress} {last : Option (ι × Identity)}

/-- Identities stay apart when each server holds no more than before. -/
theorem disjoint_mono {s s' : ι → Node} {calls calls' : List (ι × Call)}
    (h : ClusterInv a last s calls)
    (hheld : ∀ j d, Held a (s' j) (fun k => (j, k) ∈ calls') d →
      Held a (s j) (fun k => (j, k) ∈ calls) d) :
    ∀ i j d, i ≠ j → Held a (s' i) (fun k => (i, k) ∈ calls') d →
      ¬ Held a (s' j) (fun k => (j, k) ∈ calls') d :=
  fun i j d hij hi hj => h.disjoint i j d hij (hheld i d hi) (hheld j d hj)

variable {s : ι → Node} {calls calls' rest : List (ι × Call)} {i : ι} {k : Call}

/-- The calls of server `j`, when a call of server `i` steps. -/
theorem mem_calls_self (hp : calls.Perm ((i, k) :: rest)) (x : Call) :
    (i, x) ∈ calls ↔ x = k ∨ (i, x) ∈ rest := by
  rw [hp.mem_iff, List.mem_cons, Prod.mk.injEq]
  simp

theorem mem_calls_other (hp : calls.Perm ((i, k) :: rest)) {j : ι} (hj : j ≠ i) (x : Call) :
    (j, x) ∈ calls ↔ (j, x) ∈ rest := by
  rw [hp.mem_iff, List.mem_cons, Prod.mk.injEq]
  simp [hj]

theorem mem_successors_self {ks : List Call}
    (hq : calls'.Perm ((ks.map fun k => (i, k)) ++ rest)) (x : Call) :
    (i, x) ∈ calls' ↔ x ∈ ks ∨ (i, x) ∈ rest := by
  rw [hq.mem_iff, List.mem_append, List.mem_map]
  simp

theorem mem_successors_other {ks : List Call}
    (hq : calls'.Perm ((ks.map fun k => (i, k)) ++ rest)) {j : ι} (hj : j ≠ i) (x : Call) :
    (j, x) ∈ calls' ↔ (j, x) ∈ rest := by
  rw [hq.mem_iff, List.mem_append, List.mem_map]
  simp [hj.symm]

/-- A new call holds an identity that no other server holds. -/
theorem clusterInv_subscribe {id : Identity} (h : ClusterInv a last s calls)
    (hreg : ∀ j, j ≠ i → (s j).server.dispatchers a ≠ some id)
    (hcalls : ∀ c ∈ calls, c.1 ≠ i → c.2.unpublished ≠ some id) :
    ClusterInv a last s (calls ++ [(i, .subReplace a id)]) := by
  have hmem : ∀ j x, (j, x) ∈ calls ++ [(i, Call.subReplace a id)] ↔
      (j, x) ∈ calls ∨ (j = i ∧ x = .subReplace a id) := by
    intro j x
    rw [List.mem_append, List.mem_singleton, Prod.mk.injEq]
  have hheld : ∀ j d, Held a (s j) (fun k => (j, k) ∈ calls ++ [(i, Call.subReplace a id)]) d →
      Held a (s j) (fun k => (j, k) ∈ calls) d ∨ (j = i ∧ d = id) := by
    intro j d hd
    rcases hd with hreg | ⟨x, hx, hpub⟩
    · exact Or.inl (Or.inl hreg)
    · rcases (hmem j x).mp hx with hx | ⟨hj, rfl⟩
      · exact Or.inl (Or.inr ⟨x, hx, hpub⟩)
      · exact Or.inr ⟨hj, (Option.some.inj hpub).symm⟩
  have hfresh : ∀ j, j ≠ i → ¬ Held a (s j) (fun k => (j, k) ∈ calls) id := by
    rintro j hj (hr | ⟨x, hx, hpub⟩)
    · exact hreg j hj hr
    · exact hcalls (j, x) hx hj hpub
  constructor
  · intro j
    have hj := h.node j
    refine ⟨?_, hj.events, hj.handled, ?_, hj.quiet, ?_, ?_⟩
    · intro x hx
      rcases (hmem j x).mp hx with hx | ⟨-, rfl⟩
      · exact hj.calls x hx
      · simp [Call.isSubscribe]
    · intro d hd
      rcases hj.live d hd with hr | ⟨x, hx, hrep⟩
      · exact Or.inl hr
      · exact Or.inr ⟨x, (hmem j x).mpr (Or.inl hx), hrep⟩
    · intro x hx hat
      rcases (hmem j x).mp hx with hx | ⟨-, rfl⟩
      · exact hj.redis x hx hat
      · cases hat
    · intro hlast hnone
      exact hj.superseded hlast fun x hx => hnone x ((hmem j x).mpr (Or.inl hx))
  · intro j j' d hjj hd hd'
    rcases hheld j d hd with hold | ⟨rfl, rfl⟩
    · rcases hheld j' d hd' with hd' | ⟨rfl, rfl⟩
      · exact h.disjoint j j' d hjj hold hd'
      · exact hfresh j hjj hold
    · rcases hheld j' d hd' with hd' | ⟨hj', -⟩
      · exact hfresh j' (Ne.symm hjj) hd'
      · exact hjj hj'.symm

variable [DecidableEq ι]

/-- A call other than a publish concerns its own server only. -/
theorem clusterInv_local (h : ClusterInv a last s calls) (hp : calls.Perm ((i, k) :: rest))
    (hq : calls'.Perm (((k.next (s i).server).2.map fun k => (i, k)) ++ rest))
    (hpub : ∀ b id old, k ≠ .subPublish b id old)
    (hkick : ∀ b d, k = .subKickOld b (some d) → (s i).handling ≠ some (d, .subscribed a)) :
    ClusterInv a last (Function.update s i { s i with server := (k.next (s i).server).1 })
      calls' := by
  have hk : k.isSubscribe a = true := (h.node i).calls k ((mem_calls_self hp k).mpr (Or.inl rfl))
  have hsame : ∀ j, j ≠ i → (fun x => (j, x) ∈ calls') = fun x => (j, x) ∈ calls := by
    intro j hj
    funext x
    rw [mem_calls_other hp hj, mem_successors_other hq hj]
  constructor
  · intro j
    by_cases hj : j = i
    · subst hj
      rw [Function.update_self]
      exact nodeOk_next (h.node j) (mem_calls_self hp) (mem_successors_self hq) hpub hkick
    · rw [Function.update_of_ne hj, hsame j hj]
      exact h.node j
  · refine disjoint_mono h fun j d hheld => ?_
    by_cases hj : j = i
    · subst hj
      rw [Function.update_self] at hheld
      exact held_next hk (mem_calls_self hp) (mem_successors_self hq) hheld
    · rwa [Function.update_of_ne hj, hsame j hj] at hheld

/-- A publish makes its server the last publisher. -/
theorem clusterInv_publish {id : Identity} {old : Option Identity} (h : ClusterInv a last s calls)
    (hp : calls.Perm ((i, .subPublish a id old) :: rest))
    (hq : calls'.Perm ((i, .subRedis a id old) :: rest))
    (hquiet : ∀ c ∈ calls, c.1 = i ∨ c.2.atRedis = false) :
    ClusterInv a (some (i, id))
      (fun j => (s j).receive a (.connected a (decimal id.toNat))) calls' := by
  have hdisp : ∀ j, ((s j).receive a (.connected a (decimal id.toNat))).server.dispatchers =
      (s j).server.dispatchers := by
    intro j
    rcases receive_cases (s j) (.connected a (decimal id.toNat)) with ⟨-, heq⟩ | ⟨-, heq⟩ <;> rw [heq]
  have hsame : ∀ j, j ≠ i → ∀ x, (j, x) ∈ calls' ↔ (j, x) ∈ calls := by
    intro j hj x
    rw [mem_calls_other hp hj, mem_calls_other hq hj]
  have hmem : ∀ x, (i, x) ∈ rest → (i, x) ∈ calls := by
    intro x hx
    exact (mem_calls_self hp x).mpr (Or.inr hx)
  constructor
  · intro j
    by_cases hj : j = i
    · subst hj
      refine nodeOk_receive (h.node j) ?_ ?_ (fun _ _ _ => ⟨id, rfl⟩)
        (fun hlast _ => absurd rfl (hlast id))
      · intro x hx d hrep
        rcases (mem_calls_self hp x).mp hx with rfl | hx
        · exact ⟨_, (mem_calls_self hq _).mpr (Or.inl rfl), hrep⟩
        · exact ⟨x, (mem_calls_self hq x).mpr (Or.inr hx), hrep⟩
      · intro x hx
        rcases (mem_calls_self hq x).mp hx with rfl | hx
        · simp [Call.isSubscribe]
        · exact (h.node j).calls x (hmem x hx)
    · refine nodeOk_receive (h.node j) ?_ ?_ ?_ ?_
      · exact fun x hx d hrep => ⟨x, (hsame j hj x).mpr hx, hrep⟩
      · exact fun x hx => (h.node j).calls x ((hsame j hj x).mp hx)
      · intro x hx hat
        rcases hquiet _ ((hsame j hj x).mp hx) with heq | hnot
        · exact absurd heq hj
        · rw [hnot] at hat
          cases hat
      · -- the published identity is held here, so the other server has not registered it
        intro _ _
        refine superseded_receive (h.node j) fun hreg => ?_
        have hheld : Held a (s i) (fun k => (i, k) ∈ calls) id :=
          Or.inr ⟨_, (mem_calls_self hp _).mpr (Or.inl rfl), rfl⟩
        exact h.disjoint i j id (Ne.symm hj) hheld (Or.inl hreg)
  · refine disjoint_mono h fun j d hheld => ?_
    rcases hheld with hreg | ⟨x, hx, hpub⟩
    · rw [hdisp j] at hreg
      exact Or.inl hreg
    · by_cases hj : j = i
      · subst hj
        rcases (mem_calls_self hq x).mp hx with rfl | hx
        · cases hpub
        · exact Or.inr ⟨x, hmem x hx, hpub⟩
      · exact Or.inr ⟨x, (hsame j hj x).mp hx, hpub⟩

/-- Any step of a call. -/
theorem clusterInv_call {p q : Pool (ι → Node) (ι × Call)} {c : ι × Call} {rest : List (ι × Call)}
    (h : ClusterInv a last p.shared p.calls) (hp : p.calls.Perm (c :: rest))
    (hcond : orderlyCall a p c = true) (hs : q.shared = (clusterNext p.shared c).1)
    (hq : q.calls.Perm ((clusterNext p.shared c).2 ++ rest)) :
    ∃ last', ClusterInv a last' q.shared q.calls := by
  rcases c with ⟨i, k⟩
  by_cases hpub : ∃ b id old, k = .subPublish b id old
  · rcases hpub with ⟨b, id, old, rfl⟩
    have hk : (Call.subPublish b id old).isSubscribe a = true :=
      (h.node i).calls _ ((mem_calls_self hp _).mpr (Or.inl rfl))
    obtain rfl : b = a := by simpa [Call.isSubscribe] using hk
    have hquiet : ∀ c ∈ p.calls, c.1 = i ∨ c.2.atRedis = false := by
      simpa [orderlyCall] using hcond
    have hshared : (clusterNext p.shared (i, .subPublish b id old)).1 =
        fun j => (p.shared j).receive b (.connected b (decimal id.toNat)) :=
      Function.update_eq_self i _
    rw [hs, hshared]
    exact ⟨_, clusterInv_publish h hp hq hquiet⟩
  · have hnot : ∀ b id old, k ≠ .subPublish b id old :=
      fun b id old heq => hpub ⟨b, id, old, heq⟩
    have hpublish : publish p.shared k = p.shared := by
      cases k with
      | subPublish b id old => exact absurd rfl (hnot b id old)
      | _ => rfl
    simp only [clusterNext, hpublish] at hs hq
    rw [hs]
    refine ⟨last, clusterInv_local h hp hq hnot ?_⟩
    rintro b d rfl
    simpa [orderlyCall] using hcond

/-- The dispatch thread of one server moves, and registers nothing. -/
theorem clusterInv_node {nd : Node} (h : ClusterInv a last s calls)
    (hok : NodeOk a last i nd fun k => (i, k) ∈ calls)
    (hdisp : nd.server.dispatchers = (s i).server.dispatchers) :
    ClusterInv a last (Function.update s i nd) calls := by
  constructor
  · intro j
    by_cases hj : j = i
    · subst hj
      rwa [Function.update_self]
    · rw [Function.update_of_ne hj]
      exact h.node j
  · refine disjoint_mono h fun j d hheld => ?_
    by_cases hj : j = i
    · subst hj
      rwa [Function.update_self, Held, hdisp] at hheld
    · rwa [Function.update_of_ne hj] at hheld

end Step

/-! ## Every run -/

theorem take_dispatchers {nd nd' : Node} (h : nd.take = some nd') :
    nd'.server.dispatchers = nd.server.dispatchers := by
  unfold Node.take at h
  split at h
  · cases h
    rfl
  · cases h

theorem handle_dispatchers {nd nd' : Node} (h : nd.handle = some nd') :
    nd'.server.dispatchers = nd.server.dispatchers := by
  unfold Node.handle at h
  split at h
  · cases h
  · cases h
    exact (handleMessage_frame _ _ _).1

section Runs

variable {ι : Type}

theorem clusterInv_init (a : DispatchAddress) :
    ClusterInv a none (clusterInit : Pool (ι → Node) (ι × Call)).shared clusterInit.calls := by
  constructor
  · intro i
    constructor <;> simp [clusterInit, Node.initial, Server.initial]
    constructor <;> simp [Covered]
  · intro i j d _ hd _
    simp [Held, clusterInit, Node.initial, Server.initial] at hd

/-- No CONNECTED is waiting for, or being handled by, a dispatch thread. -/
def Node.connectedHandled (nd : Node) : Bool :=
  (nd.server.queue.all fun e => match e with
    | .connected _ _ => false
    | .subscribed _ => true) &&
  match nd.handling with
  | some (_, .connected _ _) => false
  | _ => true

theorem not_kicks_of_handled {a : DispatchAddress} {last : Option (ι × Identity)} {nd : Node}
    (h : nd.connectedHandled = true) :
    (¬ ∃ e ∈ nd.server.queue, Kicks a last e) ∧
    ∀ d, ¬ ∃ e, nd.handling = some (d, e) ∧ Kicks a last e := by
  rw [Node.connectedHandled, Bool.and_eq_true, List.all_eq_true] at h
  constructor
  · rintro ⟨e, he, i, c, -, rfl⟩
    exact Bool.false_ne_true (h.1 _ he)
  · rintro d ⟨e, he, i, c, -, rfl⟩
    rw [he] at h
    exact Bool.false_ne_true h.2

variable [DecidableEq ι]

theorem clusterInv_run (a : DispatchAddress) {ls : List (Sched Unit (ClusterEvent ι))}
    {p : Pool (ι → Node) (ι × Call)}
    (hrun : (clusterSystem ι a).machine.run clusterInit ls = some p)
    (hok : (clusterSystem ι a).machine.Meets (Orderly a) clusterInit ls) :
    ∃ last, ClusterInv a last p.shared p.calls := by
  refine (clusterSystem ι a).run_invariant
    (fun p => ∃ last, ClusterInv a last p.shared p.calls) ?_ ?_ ⟨none, clusterInv_init a⟩ hok hrun
  · rintro p q c rest _ s ks ⟨last, hinv⟩ hp hcond hnext hs hq
    have hnext' : clusterNext p.shared c = (s, ks) := Option.some.inj hnext
    rw [← hs] at hnext'
    exact clusterInv_call hinv hp hcond (by rw [hnext']) (by rw [hnext']; exact hq)
  · rintro p e s ks ⟨last, hinv⟩ hcond henv
    cases e with
    | subscribe i id =>
        cases henv
        exact ⟨last, clusterInv_subscribe hinv hcond.1 hcond.2⟩
    | take i =>
        rcases Option.map_eq_some_iff.mp henv with ⟨nd, htake, heq⟩
        cases heq
        rw [List.append_nil]
        exact ⟨last, clusterInv_node hinv (nodeOk_take (hinv.node i) htake) (take_dispatchers htake)⟩
    | handle i =>
        rcases Option.map_eq_some_iff.mp henv with ⟨nd, hhandle, heq⟩
        cases heq
        rw [List.append_nil]
        exact ⟨last, clusterInv_node hinv (nodeOk_handle (hinv.node i) hhandle)
          (handle_dispatchers hhandle)⟩

/-- **At most one live channel.** In every interleaving of `subscribe` calls
for `a` on any servers that meets `Orderly`, once the calls have returned and
every CONNECTED has been handled, at most one channel is available over all
servers. -/
theorem single_live_channel (a : DispatchAddress) (ls : List (Sched Unit (ClusterEvent ι)))
    (p : Pool (ι → Node) (ι × Call))
    (hrun : (clusterSystem ι a).machine.run clusterInit ls = some p)
    (hok : (clusterSystem ι a).machine.Meets (Orderly a) clusterInit ls)
    (hdone : p.calls = []) (hhandled : ∀ i, (p.shared i).connectedHandled = true)
    (i j : ι) (d e : Identity)
    (hd : ((p.shared i).server.channels d).available = true)
    (he : ((p.shared j).server.channels e).available = true) : i = j ∧ d = e := by
  rcases clusterInv_run a hrun hok with ⟨last, hinv⟩
  -- an available channel is the registered one of the last publisher
  have hlive : ∀ i d, ((p.shared i).server.channels d).available = true →
      (p.shared i).server.dispatchers a = some d ∧ ∃ c, last = some (i, c) := by
    intro i d hd
    have hreg : (p.shared i).server.dispatchers a = some d := by
      rcases (hinv.node i).live d (Or.inl hd) with hreg | ⟨k, hk, -⟩
      · exact hreg
      · rw [hdone] at hk
        cases hk
    refine ⟨hreg, ?_⟩
    by_contra hnot
    have hsup : Superseded a last (p.shared i) := by
      refine (hinv.node i).superseded (fun c hc => hnot ⟨c, hc⟩) fun k hk => ?_
      rw [hdone] at hk
      cases hk
    rcases hsup.leaving d hreg hd with hk | hk
    · exact (not_kicks_of_handled (hhandled i)).1 hk
    · exact (not_kicks_of_handled (hhandled i)).2 d hk
  rcases hlive i d hd with ⟨hregi, c, hci⟩
  rcases hlive j e he with ⟨hregj, c', hcj⟩
  have hij : i = j := by
    rw [hci] at hcj
    cases hcj
    rfl
  subst hij
  exact ⟨rfl, Option.some.inj (hregi.symm.trans hregj)⟩

instance [Fintype ι] (a : DispatchAddress) (p : Pool (ι → Node) (ι × Call)) :
    ∀ e, Decidable (freshIdentity a p e)
  | .subscribe _ _ => inferInstanceAs (Decidable (_ ∧ _))
  | .take _ => inferInstanceAs (Decidable True)
  | .handle _ => inferInstanceAs (Decidable True)

instance [Fintype ι] (a : DispatchAddress) (p : Pool (ι → Node) (ι × Call))
    (l : Sched Unit (ClusterEvent ι)) : Decidable (Orderly a p l) :=
  inferInstanceAs (Decidable (CallSystem.allow _ _ p l))

end Runs

/-! ## Two servers -/

def deviceC : DispatchAddress := ⟨ascii ['c'], 1⟩

/-- A client moves from server `true` to server `false`. -/
def move : List (Sched Unit (ClusterEvent Bool)) :=
  [.env (.subscribe true 1), .call 0 (), .call 0 (), .call 0 (), .call 0 (), .call 0 (),
   .env (.take true), .env (.handle true),
   .env (.subscribe false 2), .call 0 (), .call 0 (), .call 0 (), .call 0 (), .call 0 (),
   .env (.take true), .env (.handle true), .env (.take false), .env (.handle false)]

/-- After the move only the new channel is up. -/
theorem single_live_channel_move :
    ∃ p, (clusterSystem Bool deviceC).machine.run clusterInit move = some p ∧
      ((p.shared false).server.channels 2).available = true ∧
      ∀ i d, ((p.shared i).server.channels d).available = true → i = false ∧ d = 2 := by
  have hsome : ((clusterSystem Bool deviceC).machine.run clusterInit move).isSome := by decide
  have hok : (clusterSystem Bool deviceC).machine.Meets (Orderly deviceC) clusterInit move := by decide
  have hview : ((clusterSystem Bool deviceC).machine.run clusterInit move).map (fun p =>
      (p.calls, (p.shared true).connectedHandled, (p.shared false).connectedHandled,
        ((p.shared false).server.channels 2).available)) = some ([], true, true, true) := by decide
  rcases Option.isSome_iff_exists.mp hsome with ⟨p, hp⟩
  rw [hp, Option.map_some, Option.some.injEq, Prod.mk.injEq, Prod.mk.injEq, Prod.mk.injEq] at hview
  rcases hview with ⟨hcalls, htrue, hfalse, hlive⟩
  have hhandled : ∀ i, (p.shared i).connectedHandled = true := by
    intro i
    cases i with
    | true => exact htrue
    | false => exact hfalse
  refine ⟨p, hp, hlive, ?_⟩
  intro i d hd
  exact single_live_channel deviceC move p hp hok hcalls hhandled i false d 2 hd hlive

/-- The client connects to both servers at once: each publishes before either
has subscribed. -/
def crossing : List (Sched Unit (ClusterEvent Bool)) :=
  [.env (.subscribe true 1), .env (.subscribe false 2), .call 0 (), .call 1 (), .call 0 (),
   .call 1 (), .call 0 (), .call 1 (), .call 0 (), .call 1 (), .call 0 (), .call 0 (),
   .env (.take true), .env (.handle true), .env (.take false), .env (.handle false)]

/-- Without the condition two channels can stay up. -/
theorem two_live_channels :
    ¬ ∀ (ι : Type) (_ : DecidableEq ι) (a : DispatchAddress)
      (ls : List (Sched Unit (ClusterEvent ι))) (p : Pool (ι → Node) (ι × Call)),
      (clusterSystem ι a).machine.run clusterInit ls = some p → p.calls = [] →
      (∀ i, (p.shared i).connectedHandled = true) →
      ∀ i j d e, ((p.shared i).server.channels d).available = true →
        ((p.shared j).server.channels e).available = true → i = j ∧ d = e := by
  intro hclaim
  have hsome : ((clusterSystem Bool deviceC).machine.run clusterInit crossing).isSome := by decide
  have hview : ((clusterSystem Bool deviceC).machine.run clusterInit crossing).map (fun p =>
      (p.calls, (p.shared true).connectedHandled, (p.shared false).connectedHandled,
        ((p.shared true).server.channels 1).available,
        ((p.shared false).server.channels 2).available)) = some ([], true, true, true, true) := by
    decide
  rcases Option.isSome_iff_exists.mp hsome with ⟨p, hp⟩
  rw [hp, Option.map_some, Option.some.injEq] at hview
  simp only [Prod.mk.injEq] at hview
  rcases hview with ⟨hcalls, htrue, hfalse, hone, htwo⟩
  have hhandled : ∀ i, (p.shared i).connectedHandled = true := by
    intro i
    cases i with
    | true => exact htrue
    | false => exact hfalse
  have hsame := hclaim Bool inferInstance deviceC crossing p hp hcalls hhandled true false 1 2 hone htwo
  cases hsame.1

end BcmServer.Dispatcher
