import BcmServer.Dispatcher.Manager

/-!
# BcmServer.Dispatcher.Reconnect — reconnecting while the old teardown runs

A client that reconnects starts a `subscribe` while the `unsubscribe` of its
old connection may still be running. What has to agree when both are done are
the three things the operations of `DispatchManager` touch: the registered
channel, the redis subscription and the last status the listeners heard.

* `reconnect_race`: the operations do not guarantee it. The teardown deletes
  the old channel, the new connection registers, subscribes and reports
  "online", and then the teardown unsubscribes and reports "offline": the
  client is registered, receives nothing and counts as offline.
* `reconnect_consistent`: it holds in every interleaving in which a set-up of
  the address and a teardown of it do not overlap (`noOverlap`). Set-ups may
  overlap set-ups, teardowns may overlap teardowns, and an `unsubscribe` that
  finds another channel registered may run at any time.

The invariant has two modes. `Up`: no teardown runs and the channel is
registered; `Down`: no set-up runs, and whatever is still up has a call that
will take it down.
-/

namespace BcmServer.Dispatcher

open BcmServer.Util BcmServer.Lts

/-- The channel map, redis and the listeners agree about an address. -/
def Consistent (s : Server) (a : DispatchAddress) : Prop :=
  ((s.dispatchers a).isSome ↔ s.subChans a.getSerialized = true) ∧
  (s.subChans a.getSerialized = true ↔ s.lastStatus a = some true)

/-! ## What a running call still has to do -/

namespace Call

/-- A set-up of `a` that has registered its channel and not yet reported
"online". -/
@[grind =] def setsUp (a : DispatchAddress) : Call → Bool
  | subPublish b _ _ | subRedis b _ _ | subStatus b _ => b = a
  | _ => false

/-- A set-up of `a` that has not yet subscribed in redis. -/
@[grind =] def willSubscribe (a : DispatchAddress) : Call → Bool
  | subPublish b _ _ | subRedis b _ _ => b = a
  | _ => false

/-- A teardown of `a` that has taken its first step. -/
@[grind =] def tearsDown (a : DispatchAddress) : Call → Bool
  | unsRedis b _ | unsChannel b _ | kickDelete b | kickChannel b _ | statusOffline b => b = a
  | _ => false

/-- A teardown of `a` that will delete any channel it finds. -/
@[grind =] def willDelete (a : DispatchAddress) : Call → Bool
  | kickDelete b => b = a
  | _ => false

/-- A teardown of `a` that has yet to unsubscribe from redis. -/
@[grind =] def willUnsubscribe (a : DispatchAddress) : Call → Bool
  | unsRedis b _ => b = a
  | _ => false

/-- A teardown of `a` that has deleted the channel and will report "offline". -/
@[grind =] def willNotifyOffline (a : DispatchAddress) : Call → Bool
  | unsRedis b _ | unsChannel b _ | kickChannel b _ | statusOffline b => b = a
  | _ => false

end Call

/-! ## The condition -/

/-- A set-up of `a` and a teardown of `a` do not overlap: a channel is
registered only while no teardown of `a` is under way, and a teardown of `a`
begins (an `unsubscribe` that finds its channel, or a `kick`) only while no
set-up of `a` is. -/
def noOverlap (a : DispatchAddress) (p : Pool Server Call) : Call → Bool
  | .subReplace b _ => b ≠ a || p.calls.all fun k => !k.tearsDown a
  | .unsDelete b id => b ≠ a || (p.shared.delDispatcher a id).2 = none ||
      p.calls.all fun k => !k.setsUp a
  | .kickRedis b => b ≠ a || p.calls.all fun k => !k.setsUp a
  | _ => true

/-- `noOverlap` on schedules; requests may come at any time. -/
def Serialised (a : DispatchAddress) : Pool Server Call → Sched Unit Request → Prop :=
  CallSystem.allow (fun p k _ => noOverlap a p k = true) (fun _ _ => True)

/-! ## The invariant -/

/-- No teardown runs, the channel is registered, and what is not up yet has a
set-up that will do it. -/
def Up (a : DispatchAddress) (p : Pool Server Call) : Prop :=
  (∀ k ∈ p.calls, k.tearsDown a = false) ∧
  (p.shared.dispatchers a).isSome ∧
  (p.shared.subChans a.getSerialized = true ∨ ∃ k ∈ p.calls, k.willSubscribe a = true) ∧
  (p.shared.lastStatus a = some true ∨ ∃ k ∈ p.calls, k.setsUp a = true)

/-- No set-up runs, and what is still up has a teardown that will end it. -/
def Down (a : DispatchAddress) (p : Pool Server Call) : Prop :=
  (∀ k ∈ p.calls, k.setsUp a = false) ∧
  ((p.shared.dispatchers a).isSome → ∃ k ∈ p.calls, k.willDelete a = true) ∧
  (p.shared.subChans a.getSerialized = true → ∃ k ∈ p.calls, k.willUnsubscribe a = true) ∧
  (p.shared.lastStatus a = some true →
    (p.shared.dispatchers a).isSome ∨ ∃ k ∈ p.calls, k.willNotifyOffline a = true)

def ManagerInv (a : DispatchAddress) (p : Pool Server Call) : Prop := Up a p ∨ Down a p

theorem managerInv_init (a : DispatchAddress) : ManagerInv a managerInit := by
  right
  simp [Down, managerInit, Server.initial]

/-! ## One step -/

/-- What `delDispatcher` does: nothing, or it deletes the registered channel. -/
theorem delDispatcher_cases (s : Server) (a : DispatchAddress) (id : Identity) :
    (s.delDispatcher a id = (s, none) ∧ (id = anyIdentity → s.dispatchers a = none)) ∨
    ∃ d, s.dispatchers a = some d ∧
      s.delDispatcher a id =
        ({ s with dispatchers := Function.update s.dispatchers a none }, some d) := by
  unfold Server.delDispatcher
  split
  · rename_i hnone
    exact Or.inl ⟨rfl, fun _ => hnone⟩
  · rename_i d hd
    split
    · rename_i hother
      exact Or.inl ⟨rfl, fun hany => absurd hany hother.1⟩
    · exact Or.inr ⟨d, hd, rfl⟩

theorem subChans_update_ne {s : Server} {a b : DispatchAddress} {v : Bool} (h : b ≠ a) :
    Function.update s.subChans b.getSerialized v a.getSerialized = s.subChans a.getSerialized :=
  Function.update_of_ne (fun heq => h (getSerialized_injective heq).symm) _ _

/-- A call on another address leaves the three views of `a` alone and stays on
its address. -/
theorem next_frame (s : Server) (k : Call) {a : DispatchAddress} (h : k.address ≠ a) :
    ((k.next s).1.dispatchers a = s.dispatchers a ∧
      (k.next s).1.subChans a.getSerialized = s.subChans a.getSerialized ∧
      (k.next s).1.lastStatus a = s.lastStatus a) ∧
    ∀ k' ∈ (k.next s).2, k'.address ≠ a := by
  cases k with
  | subKickOld b old =>
      cases old <;> simp [Call.next, Server.onDispatchUnsubscribed, Server.setChannel]
  | unsDelete b id =>
      have hb : a ≠ b := fun heq => h heq.symm
      rcases delDispatcher_cases s b id with ⟨hdel, _⟩ | ⟨d, _, hdel⟩
      · simp [Call.next, hdel]
      · simpa [Call.next, hdel, Function.update_of_ne hb, Call.address] using h
  | kickDelete b =>
      have hb : a ≠ b := fun heq => h heq.symm
      rcases delDispatcher_cases s b anyIdentity with ⟨hdel, _⟩ | ⟨d, _, hdel⟩
      · simp [Call.next, hdel]
      · simpa [Call.next, hdel, Function.update_of_ne hb, Call.address] using h
  | subReplace b | subPublish b | subRedis b | subStatus b | unsRedis b | unsChannel b
  | kickRedis b | kickChannel b | statusOffline b =>
      have hb : a ≠ b := fun heq => h heq.symm
      have hchan : ∀ v, Function.update s.subChans b.getSerialized v a.getSerialized =
          s.subChans a.getSerialized := fun v => subChans_update_ne h
      simp [Call.next, Call.address, Server.newChannel, Server.replaceDispatcher, Server.redisSubscribe,
        Server.redisUnsubscribe, Server.onUserStatusChange, Server.onDispatchUnsubscribed,
        Server.setChannel, Function.update_of_ne hb, hchan, hb.symm]

/-- Calls on other addresses are pending on nothing of `a`. -/
theorem pending_of_ne {k : Call} {a : DispatchAddress} (h : k.address ≠ a) :
    k.setsUp a = false ∧ k.willSubscribe a = false ∧ k.tearsDown a = false ∧
    k.willDelete a = false ∧ k.willUnsubscribe a = false ∧ k.willNotifyOffline a = false := by
  cases k <;> simp_all [Call.address, Call.setsUp, Call.willSubscribe, Call.tearsDown,
    Call.willDelete, Call.willUnsubscribe, Call.willNotifyOffline]

/-- The modes of `a` depend on its three views and its own calls only. -/
theorem managerInv_congr {a : DispatchAddress} {p q : Pool Server Call} {k : Call}
    {rest ks : List Call} (hinv : ManagerInv a p)
    (hp : p.calls.Perm (k :: rest)) (hq : q.calls.Perm (ks ++ rest))
    (hk : k.address ≠ a) (hks : ∀ k' ∈ ks, k'.address ≠ a)
    (hdisp : q.shared.dispatchers a = p.shared.dispatchers a)
    (hsub : q.shared.subChans a.getSerialized = p.shared.subChans a.getSerialized)
    (hstat : q.shared.lastStatus a = p.shared.lastStatus a) : ManagerInv a q := by
  have hkp := pending_of_ne hk
  have hksp : ∀ k' ∈ ks, _ := fun k' hk' => pending_of_ne (hks k' hk')
  simp only [ManagerInv, Up, Down, hp.mem_iff, hq.mem_iff, hdisp, hsub, hstat] at hinv ⊢
  grind -ring -linarith -lia

/-- The step of a call on `a` itself, by what the call does next. -/
theorem managerInv_next (a : DispatchAddress) {p q : Pool Server Call} {k : Call}
    {rest ks : List Call} {s : Server} (hinv : ManagerInv a p) (hk : k.address = a)
    (hp : p.calls.Perm (k :: rest)) (hcond : noOverlap a p k = true)
    (hnext : k.next p.shared = (s, ks)) (hs : q.shared = s) (hq : q.calls.Perm (ks ++ rest)) :
    ManagerInv a q := by
  subst hs
  simp only [ManagerInv, Up, Down, hp.mem_iff, hq.mem_iff] at hinv ⊢
  cases k with
  | subReplace b id =>
      -- from `Down` nothing is left up, because no teardown is under way
      obtain rfl : b = a := hk
      simp [noOverlap, hp.mem_iff] at hcond
      simp only [Call.next, Server.newChannel, Server.setChannel, Server.replaceDispatcher,
        Prod.mk.injEq] at hnext
      rcases hnext with ⟨hs, rfl⟩
      simp [← hs] at hinv ⊢
      grind -ring -linarith -lia
  | unsDelete b id =>
      obtain rfl : b = a := hk
      rcases delDispatcher_cases p.shared b id with ⟨hdel, hnone⟩ | ⟨d, hd, hdel⟩
      · -- not our channel any more: the call returns without a trace
        simp only [Call.next, hdel, Prod.mk.injEq] at hnext
        rcases hnext with ⟨hs, rfl⟩
        simp [← hs] at hinv ⊢
        grind -ring -linarith -lia
      · -- the teardown begins, and no set-up is under way: the mode is now `Down`
        simp [noOverlap, hdel, hp.mem_iff] at hcond
        simp only [Call.next, hdel, Prod.mk.injEq] at hnext
        rcases hnext with ⟨hs, rfl⟩
        simp [← hs] at hinv ⊢
        grind -ring -linarith -lia
  | kickRedis b =>
      -- the teardown begins with redis; the channel is deleted next
      obtain rfl : b = a := hk
      simp [noOverlap, hp.mem_iff] at hcond
      simp only [Call.next, Server.redisUnsubscribe, Prod.mk.injEq] at hnext
      rcases hnext with ⟨hs, rfl⟩
      simp [← hs] at hinv ⊢
      grind -ring -linarith -lia
  | kickDelete b =>
      obtain rfl : b = a := hk
      rcases delDispatcher_cases p.shared b anyIdentity with ⟨hdel, hnone⟩ | ⟨d, hd, hdel⟩
      · -- the channel is gone already, so another teardown reports "offline"
        simp only [Call.next, hdel, Prod.mk.injEq] at hnext
        rcases hnext with ⟨hs, rfl⟩
        simp [← hs] at hinv ⊢
        grind -ring -linarith -lia
      · simp only [Call.next, hdel, Prod.mk.injEq] at hnext
        rcases hnext with ⟨hs, rfl⟩
        simp [← hs] at hinv ⊢
        grind -ring -linarith -lia
  | subKickOld b old =>
      obtain rfl : b = a := hk
      cases old <;>
        simp only [Call.next, Server.onDispatchUnsubscribed, Server.setChannel,
          Prod.mk.injEq] at hnext <;>
        rcases hnext with ⟨hs, rfl⟩ <;>
        simp [← hs] at hinv ⊢ <;>
        grind -ring -linarith -lia
  | subPublish b | subRedis b | subStatus b | unsRedis b | unsChannel b | kickChannel b
  | statusOffline b =>
      obtain rfl : b = a := hk
      simp only [Call.next, Server.redisSubscribe, Server.redisUnsubscribe,
        Server.onUserStatusChange, Server.onDispatchUnsubscribed, Server.setChannel,
        Prod.mk.injEq] at hnext
      rcases hnext with ⟨hs, rfl⟩
      simp [← hs] at hinv ⊢
      grind -ring -linarith -lia

theorem managerInv_step (a : DispatchAddress) {p q : Pool Server Call} {k : Call}
    {rest ks : List Call} {s : Server} (hinv : ManagerInv a p)
    (hp : p.calls.Perm (k :: rest)) (hcond : noOverlap a p k = true)
    (hnext : k.next p.shared = (s, ks)) (hs : q.shared = s) (hq : q.calls.Perm (ks ++ rest)) :
    ManagerInv a q := by
  by_cases hk : k.address = a
  · exact managerInv_next a hinv hk hp hcond hnext hs hq
  · have hframe := next_frame p.shared k hk
    rw [hnext] at hframe
    rcases hframe with ⟨⟨hdisp, hsub, hstat⟩, haddr⟩
    rw [← hs] at hdisp hsub hstat
    exact managerInv_congr hinv hp hq hk haddr hdisp hsub hstat

/-- A request adds a call that has done nothing yet. -/
theorem managerInv_start (a : DispatchAddress) {p : Pool Server Call} (r : Request)
    (hinv : ManagerInv a p) : ManagerInv a ⟨p.shared, p.calls ++ [r.start]⟩ := by
  simp only [ManagerInv, Up, Down, List.mem_append, List.mem_singleton] at hinv ⊢
  cases r <;>
    simp only [Request.start] <;>
    grind -ring -linarith -lia

/-! ## Every run -/

theorem managerInv_run (a : DispatchAddress) {ls : List (Sched Unit Request)}
    {p : Pool Server Call} (hrun : managerSystem.machine.run managerInit ls = some p)
    (hok : managerSystem.machine.Meets (Serialised a) managerInit ls) : ManagerInv a p := by
  refine managerSystem.run_invariant (ManagerInv a) ?_ ?_ (managerInv_init a) hok hrun
  · intro p q k rest _ s ks hinv hp hcond hnext hs hq
    have hnext' : k.next p.shared = (s, ks) := Option.some.inj hnext
    exact managerInv_step a hinv hp hcond hnext' hs hq
  · intro p r s ks hinv _ henv
    obtain ⟨rfl, rfl⟩ : p.shared = s ∧ [r.start] = ks := by simpa [managerSystem] using henv
    exact managerInv_start a r hinv

/-- **Reconnect consistency.** In every interleaving of the operations in which
set-ups and teardowns of `a` do not overlap, once the calls for `a` have
returned, a channel is registered for `a` iff redis is subscribed to it iff the
last status sent for it was "online". -/
theorem reconnect_consistent (a : DispatchAddress) (ls : List (Sched Unit Request))
    (p : Pool Server Call) (hrun : managerSystem.machine.run managerInit ls = some p)
    (hok : managerSystem.machine.Meets (Serialised a) managerInit ls)
    (hdone : ∀ k ∈ p.calls, k.address ≠ a) : Consistent p.shared a := by
  have hnone : ∀ k ∈ p.calls, _ := fun k hk => pending_of_ne (hdone k hk)
  have hinv : ManagerInv a p := managerInv_run a hrun hok
  simp only [ManagerInv, Up, Down, Consistent] at hinv ⊢
  grind -ring -linarith -lia

/-- Two connections of one client: the second connects, then the first one's
`unsubscribe` finds the second channel; a kick ends it all. -/
def handover (a : DispatchAddress) : List (Sched Unit Request) :=
  [.env (.subscribe a 1), .call 0 (), .call 0 (), .call 0 (), .call 0 (), .call 0 (),
   .env (.subscribe a 2), .call 0 (), .env (.unsubscribe a 1), .call 1 (),
   .call 0 (), .call 0 (), .call 0 (), .call 0 (),
   .env (.kick a), .call 0 (), .call 0 (), .call 0 (), .call 0 ()]

def deviceA : DispatchAddress := ⟨ascii ['a'], 1⟩

instance (a : DispatchAddress) (p : Pool Server Call) (l : Sched Unit Request) :
    Decidable (Serialised a p l) :=
  inferInstanceAs (Decidable (CallSystem.allow _ _ p l))

/-- A hand-over between two connections meets the condition. -/
theorem reconnect_consistent_handover :
    ∃ p, managerSystem.machine.run managerInit (handover deviceA) = some p ∧
      Consistent p.shared deviceA := by
  have hsome : (managerSystem.machine.run managerInit (handover deviceA)).isSome := by decide
  have hok : managerSystem.machine.Meets (Serialised deviceA) managerInit (handover deviceA) := by
    decide
  have hcalls : (managerSystem.machine.run managerInit (handover deviceA)).map Pool.calls =
      some [] := by decide
  rcases Option.isSome_iff_exists.mp hsome with ⟨p, hp⟩
  rw [hp, Option.map_some, Option.some.injEq] at hcalls
  exact ⟨p, hp, reconnect_consistent deviceA _ p hp hok (by simp [hcalls])⟩

/-- The old connection's teardown deletes its channel, the client reconnects,
and the teardown then unsubscribes the new connection's redis channel and
reports the client offline. -/
def race (a : DispatchAddress) : List (Sched Unit Request) :=
  [.env (.subscribe a 1), .call 0 (), .call 0 (), .call 0 (), .call 0 (), .call 0 (),
   .env (.unsubscribe a 1), .call 0 (),
   .env (.subscribe a 2), .call 1 (), .call 1 (), .call 1 (), .call 1 (), .call 1 (),
   .call 0 (), .call 0 (), .call 0 ()]

/-- Without the condition the three do not agree. -/
theorem reconnect_race :
    ¬ ∀ (a : DispatchAddress) (ls : List (Sched Unit Request)) (p : Pool Server Call),
      managerSystem.machine.run managerInit ls = some p →
      (∀ k ∈ p.calls, k.address ≠ a) → Consistent p.shared a := by
  intro hclaim
  have hsome : (managerSystem.machine.run managerInit (race deviceA)).isSome := by decide
  have hview : (managerSystem.machine.run managerInit (race deviceA)).map (fun p =>
      (p.calls, p.shared.dispatchers deviceA, p.shared.subChans deviceA.getSerialized,
        p.shared.lastStatus deviceA)) = some ([], some 2, false, some false) := by decide
  rcases Option.isSome_iff_exists.mp hsome with ⟨p, hp⟩
  rw [hp, Option.map_some, Option.some.injEq, Prod.mk.injEq, Prod.mk.injEq, Prod.mk.injEq] at hview
  rcases hview with ⟨hcalls, hdisp, hsub, -⟩
  have hcons := hclaim deviceA _ p hp (by simp [hcalls])
  simp [Consistent, hdisp, hsub] at hcons

end BcmServer.Dispatcher
