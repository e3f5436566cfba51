import BcmServer.Lts.Pool
import BcmServer.Util.Bytes
import Mathlib.Logic.Function.Basic

/-!
# BcmServer.Redis.Partition — the subscriptions of a partition

A `RedisPartition` keeps a registry of the channels and patterns somebody wants
(`m_subChansMap`, `m_psubChansMap`) and a connection to each of its servers. A
subscribe or unsubscribe changes the registry under one mutex and then, under
another, posts the command to every available connection. A connection that
comes up makes itself available, copies the registry and posts a subscribe for
every entry of the copy.

The event loop is one thread: it runs the posted tasks and the callbacks of the
connections one at a time, those of one connection in the order they were
activated. Calls run on other threads at any time, also between the steps of
`onSubConnect`.

* `subscriptions_kept`: once all calls have returned and all tasks have run,
  every available connection is subscribed to exactly the registry, in every
  interleaving in which (`Separated`) a registry entry is changed only while
  no call of the opposite kind on the same key has still to post, and erased
  only while no replay still holds it.
* `subscription_resurrected`: an unsubscribe between the copy and the replay
  leaves the connection subscribed to a channel nobody wants.
-/

namespace BcmServer.Redis

open BcmServer.Util BcmServer.Lts

/-- SUBSCRIBE and UNSUBSCRIBE, or PSUBSCRIBE and PUNSUBSCRIBE. -/
inductive SubKind where
  | sub
  | psub
deriving DecidableEq, Repr

/-- A channel or a pattern. -/
structure SubKey where
  kind : SubKind
  chan : Bytes
deriving DecidableEq, Repr

/-- The commands on a key. -/
inductive SubOp where
  | subscribe (handler : ℕ)
  | unsubscribe
deriving DecidableEq, Repr

def SubOp.isSub : SubOp → Bool
  | subscribe _ => true
  | unsubscribe => false

/-- `ChanHandlerMap` -/
abbrev ChanHandlerMap := List (Bytes × ℕ)

namespace ChanHandlerMap

/-- `m[chan] = handler` -/
def insert (m : ChanHandlerMap) (chan : Bytes) (handler : ℕ) : ChanHandlerMap :=
  (chan, handler) :: m.filter fun e => e.1 ≠ chan

/-- `m.erase(chan)` -/
def erase (m : ChanHandlerMap) (chan : Bytes) : ChanHandlerMap := m.filter fun e => e.1 ≠ chan

end ChanHandlerMap

/-- The state of a connection: down, with a connect callback activated, up,
with a disconnect callback activated, or in its disconnect callback. -/
inductive Link where
  | down
  | opening
  | up
  | closing
  | dropped
deriving DecidableEq, Repr

/-- An activated event of a connection. -/
inductive LoopItem where
  | task (op : SubOp) (x : SubKey)
  | connected
  | disconnected
deriving DecidableEq, Repr

/-- A subscription connection. -/
structure SubConn where
  link : Link
  /-- in `m_availableSubConns` -/
  available : Bool
  /-- activated events, oldest first -/
  queue : List LoopItem
  /-- what redis has subscribed on this connection -/
  subs : SubKey → Bool

/-- What the event loop thread is doing. The last four are the steps of
`onSubConnect` and of the disconnect handler. -/
inductive LoopThread where
  | idle
  | connecting (i : ℕ)
  | snapshot (i : ℕ)
  | replay (i : ℕ) (entries : List (SubKey × ℕ))
  | dropping (i : ℕ)
deriving DecidableEq, Repr

/-- The subscribing side of a `RedisPartition`. -/
structure SubPartition where
  /-- number of configured servers -/
  servers : ℕ
  /-- `m_subChansMap` and `m_psubChansMap` -/
  registry : SubKind → ChanHandlerMap
  conns : ℕ → SubConn
  loop : LoopThread
  /-- what the calls returned -/
  results : List (SubKey × Bool)

namespace SubPartition

def initial (servers : ℕ) : SubPartition where
  servers := servers
  registry := fun _ => []
  conns := fun _ => ⟨.down, false, [], fun _ => false⟩
  loop := .idle
  results := []

/-- Write one connection. -/
def setConn (s : SubPartition) (i : ℕ) (c : SubConn) : SubPartition :=
  { s with conns := Function.update s.conns i c }

/-- The key is in the registry. -/
def keyed (s : SubPartition) (x : SubKey) : Bool := x.chan ∈ (s.registry x.kind).map Prod.fst

/-- The registry update of a call. -/
def updateRegistry (s : SubPartition) (op : SubOp) (x : SubKey) : SubPartition :=
  let m := s.registry x.kind
  let m' := match op with
    | .subscribe handler => ChanHandlerMap.insert m x.chan handler
    | .unsubscribe => ChanHandlerMap.erase m x.chan
  { s with registry := Function.update s.registry x.kind m' }

/-- The keys of `m_availableSubConns`. -/
def availableSubConns (s : SubPartition) : List ℕ :=
  (List.range s.servers).filter fun i => (s.conns i).available

/-- `AsyncConn::subscribe` and its like: the task is activated. -/
def post (s : SubPartition) (i : ℕ) (op : SubOp) (x : SubKey) : SubPartition :=
  s.setConn i { s.conns i with queue := (s.conns i).queue ++ [.task op x] }

/-- The copy `onSubConnect` makes: the channels, then the patterns. -/
def snapshot (s : SubPartition) : List (SubKey × ℕ) :=
  ((s.registry .sub).map fun e => (⟨.sub, e.1⟩, e.2)) ++
    (s.registry .psub).map fun e => (⟨.psub, e.1⟩, e.2)

end SubPartition

/-! ## The calls -/

/-- `kKeepAliveChannel` -/
def kKeepAliveChannel : Bytes :=
  ascii ['o', 'n', 'l', 'i', 'n', 'e', 'R', 'e', 'd', 'i', 's', ':', 'k', 'e', 'e', 'p', 'A', 'l',
    'i', 'v', 'e']

/-- A call of subscribe, psubscribe, unsubscribe or punsubscribe: about to
change the registry, about to look at the available connections, or posting to
those it has left while it holds the lock on them. -/
inductive SubCall where
  | update (op : SubOp) (x : SubKey)
  | lookup (op : SubOp) (x : SubKey)
  | posting (op : SubOp) (x : SubKey) (conns : List ℕ)
deriving DecidableEq, Repr

def subNext (s : SubPartition) : SubCall → SubPartition × List SubCall
  | .update op x => (s.updateRegistry op x, [.lookup op x])
  | .lookup op x =>
      match s.availableSubConns with
      | [] => ({ s with results := s.results ++ [(x, false)] }, [])
      | conns => (s, [.posting op x conns])
  | .posting _ x [] => ({ s with results := s.results ++ [(x, true)] }, [])
  | .posting op x (i :: rest) => (s.post i op x, [.posting op x rest])

/-- A call holds the shared lock on the available connections. -/
def SubCall.locks : SubCall → Bool
  | posting _ _ _ => true
  | update _ _ | lookup _ _ => false

/-! ## The event loop -/

/-- A task of a connection runs. A command on a connection that is down reaches
no server. -/
def SubConn.runTask (c : SubConn) (op : SubOp) (x : SubKey) (rest : List LoopItem) : SubConn :=
  match c.link with
  | .up | .closing => { c with queue := rest, subs := Function.update c.subs x op.isSub }
  | .down | .opening | .dropped => { c with queue := rest }

/-- The loop thread takes the next event of connection `i`. -/
def SubPartition.runItem (s : SubPartition) (i : ℕ) : Option SubPartition :=
  let c := s.conns i
  match c.queue with
  | [] => none
  | .task op x :: rest => some (s.setConn i (c.runTask op x rest))
  | .connected :: rest =>
      -- a new context: nothing is subscribed on it
      some { s.setConn i { c with link := .up, queue := rest, subs := fun _ => false } with
        loop := .connecting i }
  | .disconnected :: rest =>
      some { s.setConn i { c with link := .dropped, queue := rest } with loop := .dropping i }

/-- The next step of a loop thread that is in a callback. `free` tells whether
it can have the exclusive lock on the available connections. -/
def SubPartition.runCallback (s : SubPartition) (free : Bool) : Option SubPartition :=
  match s.loop with
  | .idle => none
  | .connecting i =>
      if free then some { s.setConn i { s.conns i with available := true } with loop := .snapshot i }
      else none
  | .snapshot i => some { s with loop := .replay i s.snapshot }
  | .replay _ [] => some { s with loop := .idle }
  | .replay i ((x, handler) :: rest) =>
      some { s.post i (.subscribe handler) x with loop := .replay i rest }
  | .dropping i =>
      if free then
        some { s.setConn i { s.conns i with available := false, link := .down } with loop := .idle }
      else none

/-- New calls, connections that come up or break, and the loop thread. -/
inductive SubEvent where
  | call (op : SubOp) (x : SubKey)
  | established (i : ℕ)
  | broken (i : ℕ)
  | item (i : ℕ)
  | callback
deriving DecidableEq, Repr

def subEnv (p : Pool SubPartition SubCall) : SubEvent → Option (SubPartition × List SubCall)
  | .call op x =>
      if op = .unsubscribe ∧ x = ⟨.sub, kKeepAliveChannel⟩ then
        some ({ p.shared with results := p.shared.results ++ [(x, true)] }, [])
      else some (p.shared, [.update op x])
  | .established i =>
      let c := p.shared.conns i
      if i < p.shared.servers ∧ c.link = .down then
        some (p.shared.setConn i { c with link := .opening, queue := c.queue ++ [.connected] }, [])
      else none
  | .broken i =>
      let c := p.shared.conns i
      if c.link = .up then
        some (p.shared.setConn i { c with link := .closing, queue := c.queue ++ [.disconnected] }, [])
      else none
  | .item i => if p.shared.loop = .idle then (p.shared.runItem i).map fun s => (s, []) else none
  | .callback =>
      (p.shared.runCallback (p.calls.all fun k => !k.locks)).map fun s => (s, [])

def subSystem : CallSystem SubPartition SubCall Unit SubEvent where
  next s k _ := some (subNext s k)
  env := subEnv

def subInit (servers : ℕ) : Pool SubPartition SubCall := ⟨.initial servers, []⟩

/-! ## The condition -/

/-- The call has changed the registry entry of `x` and has still to post. -/
def SubCall.postsOn (x : SubKey) : SubCall → Option SubOp
  | update _ _ => none
  | lookup op y | posting op y _ => if y = x then some op else none

/-- The loop thread has still to post a subscribe for `x` from its copy. -/
def LoopThread.replays (x : SubKey) : LoopThread → Bool
  | replay _ entries => x ∈ entries.map Prod.fst
  | idle | connecting _ | snapshot _ | dropping _ => false

/-- A registry entry is changed only while no call of the opposite kind on the
same key has still to post, and erased only while no replay still holds it. -/
def separated (p : Pool SubPartition SubCall) : SubCall → Bool
  | .update op x =>
      (p.calls.all fun k => (k.postsOn x).all fun op' => op'.isSub = op.isSub) &&
        (op.isSub || !p.shared.loop.replays x)
  | .lookup _ _ | .posting _ _ _ => true

def Separated : Pool SubPartition SubCall → Sched Unit SubEvent → Prop :=
  CallSystem.allow (fun p k _ => separated p k = true) (fun _ _ => True)

instance (p : Pool SubPartition SubCall) (l : Sched Unit SubEvent) : Decidable (Separated p l) :=
  inferInstanceAs (Decidable (CallSystem.allow _ _ p l))

/-! ## What a connection is going to be subscribed to -/

/-- What an event does to the subscriptions of a connection that is up. -/
def LoopItem.apply (subs : SubKey → Bool) : LoopItem → SubKey → Bool
  | task op x => Function.update subs x op.isSub
  | connected => fun _ => false
  | disconnected => subs

/-- The subscriptions once the activated events have run. -/
def SubConn.outlook (c : SubConn) : SubKey → Bool := c.queue.foldl LoopItem.apply c.subs

theorem outlook_append (c : SubConn) (t : LoopItem) :
    { c with queue := c.queue ++ [t] }.outlook = t.apply c.outlook := by
  simp [SubConn.outlook]

/-- The events of a connection fit its state: besides tasks only one connect
callback, last, while it is opening, and one disconnect callback while it is
closing. -/
def QueueOk (l : Link) : List LoopItem → Prop
  | [] => l = .down ∨ l = .up ∨ l = .dropped
  | .task _ _ :: q => QueueOk l q
  | .connected :: q => l = .opening ∧ q = []
  | .disconnected :: q => l = .closing ∧ QueueOk .dropped q

/-- A connection without activated callbacks. -/
theorem QueueOk.rest {l l' : Link} {q : List LoopItem} (h : QueueOk l q)
    (hl : l ≠ .opening ∧ l ≠ .closing) (hl' : l' = .down ∨ l' = .up ∨ l' = .dropped) :
    QueueOk l' q := by
  induction q with
  | nil => exact hl'
  | cons t q ih =>
      cases t with
      | task op x => exact ih h
      | connected => exact absurd h.1 hl.1
      | disconnected => exact absurd h.1 hl.2

theorem QueueOk.post {l : Link} {q : List LoopItem} (h : QueueOk l q) (hl : l ≠ .opening)
    (op : SubOp) (x : SubKey) : QueueOk l (q ++ [.task op x]) := by
  induction q generalizing l with
  | nil => exact h
  | cons t q ih =>
      cases t with
      | task op' y => exact ih h hl
      | connected => exact absurd h.1 hl
      | disconnected => exact ⟨h.1, ih h.2 (fun heq => (nomatch heq))⟩

theorem QueueOk.established {q : List LoopItem} (h : QueueOk .down q) :
    QueueOk .opening (q ++ [.connected]) := by
  induction q with
  | nil => exact ⟨rfl, rfl⟩
  | cons t q ih =>
      cases t with
      | task op x => exact ih h
      | connected => cases h.1
      | disconnected => cases h.1

theorem QueueOk.broken {q : List LoopItem} (h : QueueOk .up q) :
    QueueOk .closing (q ++ [.disconnected]) := by
  induction q with
  | nil => exact ⟨rfl, Or.inr (Or.inr rfl)⟩
  | cons t q ih =>
      cases t with
      | task op x => exact ih h
      | connected => cases h.1
      | disconnected => cases h.1

/-! ## The connections and the loop thread -/

/-- What holds of the connections whatever the calls do. -/
structure LoopOk (s : SubPartition) : Prop where
  queue : ∀ i, QueueOk (s.conns i).link (s.conns i).queue
  avail : ∀ i, (s.conns i).available = true → i < s.servers ∧
    ((s.conns i).link = .up ∨ (s.conns i).link = .closing ∨
      ((s.conns i).link = .dropped ∧ s.loop = .dropping i))
  connecting : ∀ i, s.loop = .connecting i → (s.conns i).available = false ∧ i < s.servers ∧
    ((s.conns i).link = .up ∨ (s.conns i).link = .closing) ∧ ∀ x, (s.conns i).outlook x = false
  opening : ∀ i, (s.conns i).link = .opening → i < s.servers
  replaying : ∀ i, (s.loop = .snapshot i ∨ ∃ es, s.loop = .replay i es) →
    (s.conns i).available = true
  dropping : ∀ i, s.loop = .dropping i → (s.conns i).link = .dropped

@[simp] theorem setConn_self (s : SubPartition) (i : ℕ) (c : SubConn) :
    (s.setConn i c).conns i = c := by
  simp [SubPartition.setConn]

theorem setConn_of_ne (s : SubPartition) {i j : ℕ} (c : SubConn) (h : j ≠ i) :
    (s.setConn i c).conns j = s.conns j := by
  simp [SubPartition.setConn, h]

theorem LoopOk.post {s : SubPartition} (h : LoopOk s) {i : ℕ}
    (hi : (s.conns i).available = true) (op : SubOp) (x : SubKey) : LoopOk (s.post i op x) := by
  have hopening : (s.conns i).link ≠ .opening := by
    rcases (h.avail i hi).2 with hl | hl | ⟨hl, -⟩ <;> rw [hl] <;> exact fun heq => (nomatch heq)
  -- only the queue of `i` changes
  have hconn : ∀ j, ((s.post i op x).conns j).available = (s.conns j).available ∧
      ((s.post i op x).conns j).link = (s.conns j).link := by
    intro j
    by_cases hj : j = i
    · subst hj
      simp [SubPartition.post]
    · simp [SubPartition.post, setConn_of_ne s _ hj]
  refine ⟨fun j => ?_, fun j hj => ?_, fun j hj => ?_, fun j hj => ?_, fun j hj => ?_,
    fun j hj => ?_⟩
  · by_cases hji : j = i
    · subst hji
      rw [SubPartition.post, setConn_self]
      exact (h.queue j).post hopening op x
    · rw [SubPartition.post, setConn_of_ne s _ hji]
      exact h.queue j
  · rw [(hconn j).1] at hj
    rw [(hconn j).2]
    exact h.avail j hj
  · have hold := h.connecting j hj
    have hji : j ≠ i := by
      intro heq
      rw [heq, hi] at hold
      cases hold.1
    rw [SubPartition.post, setConn_of_ne s _ hji]
    exact hold
  · rw [(hconn j).2] at hj
    exact h.opening j hj
  · rw [(hconn j).1]
    exact h.replaying j hj
  · rw [(hconn j).2]
    exact h.dropping j hj

/-- The loop thread writes connection `i`, the only one it can be busy with. -/
theorem LoopOk.move {s : SubPartition} (h : LoopOk s) {i : ℕ} {c : SubConn} {l : LoopThread}
    (hbusy : ∀ j, s.loop = .dropping j → j = i) (hqueue : QueueOk c.link c.queue)
    (havail : c.available = true → i < s.servers ∧
      (c.link = .up ∨ c.link = .closing ∨ (c.link = .dropped ∧ l = .dropping i)))
    (hopening : c.link = .opening → i < s.servers)
    (hconnecting : ∀ j, l = .connecting j → j = i ∧ c.available = false ∧ i < s.servers ∧
      (c.link = .up ∨ c.link = .closing) ∧ ∀ x, c.outlook x = false)
    (hreplaying : ∀ j, (l = .snapshot j ∨ ∃ es, l = .replay j es) → j = i ∧ c.available = true)
    (hdropping : ∀ j, l = .dropping j → j = i ∧ c.link = .dropped) :
    LoopOk { s.setConn i c with loop := l } := by
  have hself : { s.setConn i c with loop := l }.conns i = c := setConn_self s i c
  have hother : ∀ j, j ≠ i → { s.setConn i c with loop := l }.conns j = s.conns j :=
    fun j hj => setConn_of_ne s c hj
  refine ⟨fun j => ?_, fun j hj => ?_, fun j hj => ?_, fun j hj => ?_, fun j hj => ?_,
    fun j hj => ?_⟩
  · by_cases hji : j = i
    · rw [hji, hself]
      exact hqueue
    · rw [hother j hji]
      exact h.queue j
  · by_cases hji : j = i
    · rw [hji, hself] at hj
      rw [hji, hself]
      exact havail hj
    · rw [hother j hji] at hj
      rw [hother j hji]
      refine ⟨(h.avail j hj).1, ?_⟩
      rcases (h.avail j hj).2 with hl | hl | ⟨-, hl⟩
      · exact Or.inl hl
      · exact Or.inr (Or.inl hl)
      · exact absurd (hbusy j hl) hji
  · rcases hconnecting j hj with ⟨rfl, hc⟩
    rw [hself]
    exact hc
  · by_cases hji : j = i
    · rw [hji, hself] at hj
      rw [hji]
      exact hopening hj
    · rw [hother j hji] at hj
      exact h.opening j hj
  · rcases hreplaying j hj with ⟨rfl, hc⟩
    rw [hself]
    exact hc
  · rcases hdropping j hj with ⟨rfl, hc⟩
    rw [hself]
    exact hc

/-- The loop thread goes on without touching a connection. -/
theorem LoopOk.moveLoop {s : SubPartition} (h : LoopOk s) {l : LoopThread}
    (hbusy : ∀ j, s.loop ≠ .dropping j) (hconnecting : ∀ j, l ≠ .connecting j)
    (hreplaying : ∀ j, (l = .snapshot j ∨ ∃ es, l = .replay j es) →
      (s.conns j).available = true) (hdropping : ∀ j, l ≠ .dropping j) :
    LoopOk { s with loop := l } := by
  refine ⟨h.queue, fun j hj => ⟨(h.avail j hj).1, ?_⟩, fun j hj => absurd hj (hconnecting j),
    h.opening, hreplaying, fun j hj => absurd hj (hdropping j)⟩
  rcases (h.avail j hj).2 with hl | hl | ⟨-, hl⟩
  · exact Or.inl hl
  · exact Or.inr (Or.inl hl)
  · exact absurd hl (hbusy j)

theorem LoopOk.runItem {s t : SubPartition} (h : LoopOk s) (hidle : s.loop = .idle) {i : ℕ}
    (hrun : s.runItem i = some t) : LoopOk t := by
  have hbusy : ∀ j, s.loop = .dropping j → j = i := by
    intro j hj
    rw [hidle] at hj
    cases hj
  have hqueue := h.queue i
  simp only [SubPartition.runItem] at hrun
  split at hrun
  · cases hrun
  · rename_i op x rest hq
    cases hrun
    rw [hq] at hqueue
    have hc : ((s.conns i).runTask op x rest).link = (s.conns i).link ∧
        ((s.conns i).runTask op x rest).queue = rest ∧
        ((s.conns i).runTask op x rest).available = (s.conns i).available := by
      unfold SubConn.runTask
      split <;> exact ⟨rfl, rfl, rfl⟩
    generalize (s.conns i).runTask op x rest = c at hc
    show LoopOk { s.setConn i c with loop := s.loop }
    refine h.move hbusy (by rw [hc.1, hc.2.1]; exact hqueue) (fun ha => ?_)
      (fun ho => h.opening i (by rwa [hc.1] at ho)) (fun j hj => ?_) (fun j hj => ?_)
      (fun j hj => ?_)
    · rw [hc.2.2] at ha
      rw [hc.1]
      exact h.avail i ha
    · rw [hidle] at hj
      cases hj
    · rw [hidle] at hj
      rcases hj with hj | ⟨es, hj⟩ <;> cases hj
    · rw [hidle] at hj
      cases hj
  · rename_i rest hq
    cases hrun
    rw [hq] at hqueue
    rcases hqueue with ⟨hlink, rfl⟩
    -- the connection was opening, so nobody had it available
    have hunavail : (s.conns i).available = false := by
      by_contra ha
      rw [Bool.not_eq_false] at ha
      rcases (h.avail i ha).2 with hl | hl | ⟨hl, -⟩ <;> rw [hlink] at hl <;> cases hl
    refine h.move hbusy (Or.inr (Or.inl rfl)) (fun ha => ?_) (fun ho => (nomatch ho))
      (fun j hj => ?_) (fun j hj => ?_) (fun j hj => (nomatch hj))
    · exact absurd ha (by simp [hunavail])
    · cases hj
      exact ⟨rfl, hunavail, h.opening i hlink, Or.inl rfl, fun x => rfl⟩
    · rcases hj with hj | ⟨es, hj⟩ <;> cases hj
  · rename_i rest hq
    cases hrun
    rw [hq] at hqueue
    refine h.move hbusy hqueue.2 (fun ha => ⟨(h.avail i ha).1, Or.inr (Or.inr ⟨rfl, rfl⟩)⟩)
      (fun ho => (nomatch ho)) (fun j hj => (nomatch hj)) (fun j hj => ?_) (fun j hj => ?_)
    · rcases hj with hj | ⟨es, hj⟩ <;> cases hj
    · cases hj
      exact ⟨rfl, rfl⟩

theorem LoopOk.runCallback {s t : SubPartition} (h : LoopOk s) {free : Bool}
    (hrun : s.runCallback free = some t) : LoopOk t := by
  simp only [SubPartition.runCallback] at hrun
  split at hrun
  · cases hrun
  · rename_i i hloop
    split at hrun
    · cases hrun
      rcases h.connecting i hloop with ⟨-, hi, hlink, -⟩
      refine h.move (fun j hj => ?_) (h.queue i) (fun _ => ⟨hi, ?_⟩) (fun _ => hi)
        (fun j hj => (nomatch hj)) (fun j hj => ?_) (fun j hj => (nomatch hj))
      · rw [hloop] at hj
        cases hj
      · rcases hlink with hl | hl
        · exact Or.inl hl
        · exact Or.inr (Or.inl hl)
      · rcases hj with hj | ⟨es, hj⟩ <;> cases hj
        exact ⟨rfl, rfl⟩
    · cases hrun
  · rename_i i hloop
    cases hrun
    refine h.moveLoop (fun j hj => ?_) (fun j hj => (nomatch hj)) (fun j hj => ?_)
      (fun j hj => (nomatch hj))
    · rw [hloop] at hj
      cases hj
    · rcases hj with hj | ⟨es, hj⟩ <;> cases hj
      exact h.replaying i (Or.inl hloop)
  · rename_i i hloop
    cases hrun
    refine h.moveLoop (fun j hj => ?_) (fun j hj => (nomatch hj)) (fun j hj => ?_)
      (fun j hj => (nomatch hj))
    · rw [hloop] at hj
      cases hj
    · rcases hj with hj | ⟨es, hj⟩ <;> cases hj
  · rename_i i x handler rest hloop
    cases hrun
    have hi : (s.conns i).available = true := h.replaying i (Or.inr ⟨_, hloop⟩)
    refine (h.post hi (.subscribe handler) x).moveLoop (fun j hj => ?_) (fun j hj => (nomatch hj))
      (fun j hj => ?_) (fun j hj => (nomatch hj))
    · rw [show (s.post i (.subscribe handler) x).loop = s.loop from rfl, hloop] at hj
      cases hj
    · rcases hj with hj | ⟨es, hj⟩ <;> cases hj
      rw [SubPartition.post, setConn_self]
      exact hi
  · rename_i i hloop
    split at hrun
    · cases hrun
      have hlink := h.dropping i hloop
      have hqueue := h.queue i
      rw [hlink] at hqueue
      refine h.move (fun j hj => ?_) (hqueue.rest ⟨fun heq => (nomatch heq), fun heq => (nomatch heq)⟩
        (Or.inl rfl)) (fun ha => (nomatch ha)) (fun ho => (nomatch ho)) (fun j hj => (nomatch hj))
        (fun j hj => ?_) (fun j hj => (nomatch hj))
      · rw [hloop] at hj
        cases hj
        rfl
      · rcases hj with hj | ⟨es, hj⟩ <;> cases hj
    · cases hrun

/-- A connection comes up or breaks: its callback is activated, and nothing else
is known yet. -/
theorem LoopOk.activate {s : SubPartition} (h : LoopOk s) {i : ℕ} {c : SubConn}
    (hqueue : QueueOk c.link c.queue) (havail : c.available = (s.conns i).available)
    (hlink : (c.link = .opening ∧ (s.conns i).link = .down ∧ i < s.servers) ∨
      (c.link = .closing ∧ (s.conns i).link = .up))
    (houtlook : c.link = .closing → c.outlook = (s.conns i).outlook) : LoopOk (s.setConn i c) := by
  have hup : c.available = true → i < s.servers ∧ c.link = .closing ∧ (s.conns i).link = .up := by
    intro ha
    rw [havail] at ha
    rcases hlink with ⟨-, hdown, -⟩ | hclosing
    · rcases (h.avail i ha).2 with hl | hl | ⟨hl, -⟩ <;> rw [hdown] at hl <;> cases hl
    · exact ⟨(h.avail i ha).1, hclosing⟩
  refine ⟨fun j => ?_, fun j hj => ?_, fun j hj => ?_, fun j hj => ?_, fun j hj => ?_,
    fun j hj => ?_⟩
  all_goals by_cases hji : j = i
  · rw [hji, setConn_self]
    exact hqueue
  · rw [setConn_of_ne s c hji]
    exact h.queue j
  · rw [hji, setConn_self] at hj
    rw [hji, setConn_self]
    exact ⟨(hup hj).1, Or.inr (Or.inl (hup hj).2.1)⟩
  · rw [setConn_of_ne s c hji] at hj ⊢
    exact h.avail j hj
  · rw [hji] at hj ⊢
    rcases h.connecting i hj with ⟨hna, hi, hl, hout⟩
    rw [setConn_self, havail]
    rcases hlink with ⟨-, hdown, -⟩ | ⟨hclosing, -⟩
    · rw [hdown] at hl
      rcases hl with hl | hl <;> cases hl
    · exact ⟨hna, hi, Or.inr hclosing, by rw [houtlook hclosing]; exact hout⟩
  · rw [setConn_of_ne s c hji]
    exact h.connecting j hj
  · rw [hji, setConn_self] at hj
    rcases hlink with ⟨-, -, hi⟩ | ⟨hclosing, -⟩
    · rwa [hji]
    · rw [hclosing] at hj
      cases hj
  · rw [setConn_of_ne s c hji] at hj
    exact h.opening j hj
  · rw [hji] at hj ⊢
    rw [setConn_self, havail]
    exact h.replaying i hj
  · rw [setConn_of_ne s c hji]
    exact h.replaying j hj
  · rw [hji] at hj
    have hdropped := h.dropping i hj
    rcases hlink with ⟨-, hdown, -⟩ | ⟨-, hl⟩
    · rw [hdown] at hdropped
      cases hdropped
    · rw [hl] at hdropped
      cases hdropped
  · rw [setConn_of_ne s c hji]
    exact h.dropping j hj

/-! ## One key -/

/-- The connections a call has still to post to while it holds the lock. -/
def SubCall.conns : SubCall → List ℕ
  | posting _ _ conns => conns
  | update _ _ | lookup _ _ => []

/-- The call will post on `x` to connection `i`, if it is available. -/
def SubCall.willPost (i : ℕ) (x : SubKey) : SubCall → Bool
  | update _ _ => false
  | lookup _ y => y = x
  | posting _ y conns => y = x && i ∈ conns

/-- The loop thread will post a subscribe on `x` to connection `i`, if `x` is
in the registry. -/
def LoopThread.willReplay (i : ℕ) (x : SubKey) : LoopThread → Bool
  | snapshot j => j = i
  | replay j entries => j = i && x ∈ entries.map Prod.fst
  | idle | connecting _ | dropping _ => false

/-- What holds of a key: the calls that have still to post agree with the
registry, and so does what every available connection is going to be subscribed
to, or else it will be told. -/
structure KeyOk (x : SubKey) (p : Pool SubPartition SubCall) : Prop where
  ops : ∀ k ∈ p.calls, ∀ op, k.postsOn x = some op → op.isSub = p.shared.keyed x
  copy : p.shared.loop.replays x = true → p.shared.keyed x = true
  agree : ∀ i, (p.shared.conns i).available = true →
    (p.shared.conns i).outlook x = p.shared.keyed x ∨
    (p.shared.keyed x = true ∧ p.shared.loop.willReplay i x = true) ∨
    ∃ k ∈ p.calls, k.willPost i x = true

structure SubInv (x : SubKey) (p : Pool SubPartition SubCall) : Prop where
  loop : LoopOk p.shared
  locked : ∀ k ∈ p.calls, ∀ i ∈ k.conns, (p.shared.conns i).available = true
  key : KeyOk x p

theorem keyed_updateRegistry (s : SubPartition) (op : SubOp) (x y : SubKey) :
    (s.updateRegistry op y).keyed x = if y = x then op.isSub else s.keyed x := by
  rcases x with ⟨kind, chan⟩
  by_cases hkind : kind = y.kind
  · subst hkind
    have hreg : (s.updateRegistry op y).registry y.kind = (match op with
        | .subscribe handler => ChanHandlerMap.insert (s.registry y.kind) y.chan handler
        | .unsubscribe => ChanHandlerMap.erase (s.registry y.kind) y.chan) :=
      Function.update_self _ _ _
    rw [SubPartition.keyed, hreg]
    by_cases hchan : chan = y.chan
    · subst hchan
      cases op <;> simp [ChanHandlerMap.insert, ChanHandlerMap.erase, SubOp.isSub]
    · have hne : y ≠ ⟨y.kind, chan⟩ := fun heq => hchan (congrArg SubKey.chan heq).symm
      rw [if_neg hne, SubPartition.keyed, decide_eq_decide]
      cases op <;> simp [ChanHandlerMap.insert, ChanHandlerMap.erase, hchan]
  · have hne : y ≠ ⟨kind, chan⟩ := fun heq => hkind (congrArg SubKey.kind heq).symm
    rw [if_neg hne]
    simp only [SubPartition.keyed, SubPartition.updateRegistry, Function.update_of_ne hkind]

theorem mem_snapshot (s : SubPartition) (x : SubKey) :
    x ∈ s.snapshot.map Prod.fst ↔ s.keyed x = true := by
  rcases x with ⟨kind, chan⟩
  cases kind <;> simp [SubPartition.snapshot, SubPartition.keyed]

theorem outlook_post (s : SubPartition) (i j : ℕ) (op : SubOp) (x y : SubKey) :
    ((s.post i op y).conns j).outlook x =
      if j = i ∧ y = x then op.isSub else (s.conns j).outlook x := by
  by_cases hj : j = i
  · rw [hj, SubPartition.post, setConn_self, outlook_append]
    by_cases hyx : y = x
    · simp [LoopItem.apply, hyx]
    · simp [LoopItem.apply, hyx, Function.update_of_ne (fun heq => hyx (Eq.symm heq))]
  · rw [SubPartition.post, setConn_of_ne s _ hj, if_neg (fun h => hj h.1)]

theorem available_post (s : SubPartition) (i j : ℕ) (op : SubOp) (y : SubKey) :
    ((s.post i op y).conns j).available = (s.conns j).available := by
  by_cases hj : j = i
  · rw [hj, SubPartition.post, setConn_self]
  · rw [SubPartition.post, setConn_of_ne s _ hj]

section Call

variable {x : SubKey} {p q : Pool SubPartition SubCall} {rest : List SubCall}

/-- A call that is not the scheduled one. -/
theorem mem_of_rest {k k' : SubCall} (hp : p.calls.Perm (k :: rest)) (hk : k' ∈ rest) :
    k' ∈ p.calls :=
  hp.mem_iff.mpr (List.mem_cons_of_mem k hk)

/-- The call changes the registry. -/
theorem subInv_update {op : SubOp} {y : SubKey} (h : SubInv x p)
    (hp : p.calls.Perm (.update op y :: rest)) (hcond : separated p (.update op y) = true)
    (hs : q.shared = p.shared.updateRegistry op y) (hq : q.calls.Perm ([.lookup op y] ++ rest)) :
    SubInv x q := by
  have hmem : ∀ k ∈ q.calls, k = .lookup op y ∨ k ∈ p.calls := by
    intro k hk
    rcases List.mem_append.mp (hq.mem_iff.mp hk) with hk | hk
    · exact Or.inl (List.mem_singleton.mp hk)
    · exact Or.inr (mem_of_rest hp hk)
  have hlookup : .lookup op y ∈ q.calls :=
    hq.mem_iff.mpr (List.mem_append_left rest (List.mem_singleton.mpr rfl))
  have hkeyed := keyed_updateRegistry p.shared op x y
  refine ⟨?_, ?_, ?_, ?_, ?_⟩
  · rw [hs]
    exact ⟨h.loop.queue, h.loop.avail, h.loop.connecting, h.loop.opening, h.loop.replaying,
      h.loop.dropping⟩
  · intro k hk i hi
    rw [hs]
    rcases hmem k hk with rfl | hk
    · cases hi
    · exact h.locked k hk i hi
  · intro k hk op' hop'
    rw [hs, hkeyed]
    by_cases hyx : y = x
    · rw [if_pos hyx]
      rcases hmem k hk with rfl | hk
      · simp only [SubCall.postsOn, if_pos hyx, Option.some.injEq] at hop'
        rw [hop']
      · -- the others on this key are of the same kind
        simp only [separated, Bool.and_eq_true, List.all_eq_true] at hcond
        have hsame := hcond.1 k hk
        rw [hyx, hop'] at hsame
        simpa using hsame
    · rw [if_neg hyx]
      rcases hmem k hk with rfl | hk
      · simp [SubCall.postsOn, hyx] at hop'
      · exact h.key.ops k hk op' hop'
  · rw [hs, hkeyed]
    intro hreplays
    have hreplays' : p.shared.loop.replays x = true := hreplays
    by_cases hyx : y = x
    · rw [if_pos hyx]
      simp only [separated, Bool.and_eq_true, Bool.or_eq_true] at hcond
      rcases hcond.2 with hsub | hnone
      · exact hsub
      · rw [hyx, hreplays'] at hnone
        cases hnone
    · rw [if_neg hyx]
      exact h.key.copy hreplays'
  · intro i hi
    rw [hs] at hi ⊢
    by_cases hyx : y = x
    · exact Or.inr (Or.inr ⟨_, hlookup, by simp [SubCall.willPost, hyx]⟩)
    · rw [hkeyed, if_neg hyx]
      rcases h.key.agree i hi with hout | hrep | ⟨k, hk, hwill⟩
      · exact Or.inl hout
      · exact Or.inr (Or.inl hrep)
      · refine Or.inr (Or.inr ⟨k, hq.mem_iff.mpr (List.mem_append_right _ ?_), hwill⟩)
        rcases List.mem_cons.mp (hp.mem_iff.mp hk) with rfl | hk
        · cases hwill
        · exact hk

/-- A call that returns, or takes the list of connections, leaves the registry
and the connections alone. -/
theorem subInv_quiet {k : SubCall} {ks : List SubCall} (h : SubInv x p)
    (hp : p.calls.Perm (k :: rest)) (hreg : q.shared.registry = p.shared.registry)
    (hservers : q.shared.servers = p.shared.servers)
    (hconns : q.shared.conns = p.shared.conns) (hloop : q.shared.loop = p.shared.loop)
    (hq : q.calls.Perm (ks ++ rest))
    (hlocked : ∀ k' ∈ ks, ∀ i ∈ k'.conns, (p.shared.conns i).available = true)
    (hops : ∀ k' ∈ ks, ∀ op, k'.postsOn x = some op → k.postsOn x = some op)
    (hwill : ∀ i, (p.shared.conns i).available = true → k.willPost i x = true →
      ∃ k' ∈ ks, k'.willPost i x = true) : SubInv x q := by
  have hkeyed : q.shared.keyed x = p.shared.keyed x := by rw [SubPartition.keyed, hreg]; rfl
  refine ⟨⟨?_, ?_, ?_, ?_, ?_, ?_⟩, ?_, ?_, ?_, ?_⟩
  · rw [hconns]; exact h.loop.queue
  · rw [hconns, hservers, hloop]; exact h.loop.avail
  · rw [hconns, hservers, hloop]; exact h.loop.connecting
  · rw [hconns, hservers]; exact h.loop.opening
  · rw [hconns, hloop]; exact h.loop.replaying
  · rw [hconns, hloop]; exact h.loop.dropping
  · intro k' hk'
    rw [hconns]
    rcases List.mem_append.mp (hq.mem_iff.mp hk') with hk' | hk'
    · exact hlocked k' hk'
    · exact h.locked k' (mem_of_rest hp hk')
  · intro k' hk' op hop
    rw [hkeyed]
    rcases List.mem_append.mp (hq.mem_iff.mp hk') with hk' | hk'
    · exact h.key.ops k (hp.mem_iff.mpr List.mem_cons_self) op (hops k' hk' op hop)
    · exact h.key.ops k' (mem_of_rest hp hk') op hop
  · rw [hloop, hkeyed]
    exact h.key.copy
  · intro i hi
    rw [hconns] at hi ⊢
    rw [hkeyed, hloop]
    rcases h.key.agree i hi with hout | hrep | ⟨k', hk', hw⟩
    · exact Or.inl hout
    · exact Or.inr (Or.inl hrep)
    · refine Or.inr (Or.inr ?_)
      rcases List.mem_cons.mp (hp.mem_iff.mp hk') with rfl | hk'
      · rcases hwill i hi hw with ⟨k'', hk'', hw'⟩
        exact ⟨k'', hq.mem_iff.mpr (List.mem_append_left rest hk''), hw'⟩
      · exact ⟨k', hq.mem_iff.mpr (List.mem_append_right ks hk'), hw⟩

/-- The call posts to one connection. -/
theorem subInv_post {op : SubOp} {y : SubKey} {i : ℕ} {is : List ℕ} (h : SubInv x p)
    (hp : p.calls.Perm (.posting op y (i :: is) :: rest)) (hs : q.shared = p.shared.post i op y)
    (hq : q.calls.Perm ([.posting op y is] ++ rest)) : SubInv x q := by
  have hself : .posting op y (i :: is) ∈ p.calls := hp.mem_iff.mpr List.mem_cons_self
  have hi : (p.shared.conns i).available = true := h.locked _ hself i List.mem_cons_self
  have hmem : ∀ k ∈ q.calls, k = .posting op y is ∨ k ∈ p.calls := by
    intro k hk
    rcases List.mem_append.mp (hq.mem_iff.mp hk) with hk | hk
    · exact Or.inl (List.mem_singleton.mp hk)
    · exact Or.inr (mem_of_rest hp hk)
  have hpost : .posting op y is ∈ q.calls :=
    hq.mem_iff.mpr (List.mem_append_left rest (List.mem_singleton.mpr rfl))
  have hkeyed : q.shared.keyed x = p.shared.keyed x := by rw [hs]; rfl
  refine ⟨?_, ?_, ?_, ?_, ?_⟩
  · rw [hs]
    exact h.loop.post hi op y
  · intro k hk j hj
    rw [hs, available_post]
    rcases hmem k hk with rfl | hk
    · exact h.locked _ hself j (List.mem_cons_of_mem i hj)
    · exact h.locked k hk j hj
  · intro k hk op' hop'
    rw [hkeyed]
    rcases hmem k hk with rfl | hk
    · exact h.key.ops _ hself op' hop'
    · exact h.key.ops k hk op' hop'
  · rw [hkeyed, hs]
    exact h.key.copy
  · intro j hj
    rw [hkeyed]
    rw [hs, available_post] at hj
    rw [hs, outlook_post]
    by_cases hji : j = i ∧ y = x
    · rw [if_pos hji]
      exact Or.inl (h.key.ops _ hself op (by simp [SubCall.postsOn, hji.2]))
    · rw [if_neg hji]
      rcases h.key.agree j hj with hout | hrep | ⟨k, hk, hwill⟩
      · exact Or.inl hout
      · exact Or.inr (Or.inl hrep)
      · refine Or.inr (Or.inr ?_)
        rcases List.mem_cons.mp (hp.mem_iff.mp hk) with rfl | hk
        · refine ⟨_, hpost, ?_⟩
          simp only [SubCall.willPost, Bool.and_eq_true, decide_eq_true_eq] at hwill ⊢
          refine ⟨hwill.1, (List.mem_cons.mp hwill.2).resolve_left fun heq => ?_⟩
          exact hji ⟨heq, hwill.1⟩
        · exact ⟨k, hq.mem_iff.mpr (List.mem_append_right _ hk), hwill⟩

theorem mem_availableSubConns {s : SubPartition} (h : LoopOk s) {i : ℕ} :
    i ∈ s.availableSubConns ↔ (s.conns i).available = true := by
  simp only [SubPartition.availableSubConns, List.mem_filter, List.mem_range, and_iff_right_iff_imp]
  exact fun hi => (h.avail i hi).1

theorem subInv_call {k : SubCall} {ks : List SubCall} {s : SubPartition} (h : SubInv x p)
    (hp : p.calls.Perm (k :: rest)) (hcond : separated p k = true)
    (hnext : subNext p.shared k = (s, ks)) (hs : q.shared = s) (hq : q.calls.Perm (ks ++ rest)) :
    SubInv x q := by
  cases k with
  | update op y =>
      cases hnext
      exact subInv_update h hp hcond hs hq
  | lookup op y =>
      simp only [subNext] at hnext
      split at hnext
      · rename_i hnone
        cases hnext
        refine subInv_quiet h hp (by rw [hs]) (by rw [hs]) (by rw [hs]) (by rw [hs]) hq
          (fun k' hk' => (nomatch hk')) (fun k' hk' => (nomatch hk')) (fun i hi _ => ?_)
        -- nothing is available, so there is nobody to tell
        rw [← mem_availableSubConns h.loop, hnone] at hi
        cases hi
      · cases hnext
        refine subInv_quiet h hp (by rw [hs]) (by rw [hs]) (by rw [hs]) (by rw [hs]) hq
          (fun k' hk' i hi => ?_) (fun k' hk' op' hop' => ?_) (fun i hi hw => ?_)
        · rw [List.mem_singleton.mp hk'] at hi
          exact (mem_availableSubConns h.loop).mp hi
        · rw [List.mem_singleton.mp hk'] at hop'
          exact hop'
        · refine ⟨_, List.mem_singleton.mpr rfl, ?_⟩
          simp only [SubCall.willPost, decide_eq_true_eq, Bool.and_eq_true] at hw ⊢
          exact ⟨hw, (mem_availableSubConns h.loop).mpr hi⟩
  | posting op y is =>
      cases is with
      | nil =>
          cases hnext
          refine subInv_quiet h hp (by rw [hs]) (by rw [hs]) (by rw [hs]) (by rw [hs]) hq
            (fun k' hk' => (nomatch hk')) (fun k' hk' => (nomatch hk')) (fun i _ hw => ?_)
          simp [SubCall.willPost] at hw
      | cons i is =>
          cases hnext
          exact subInv_post h hp hs hq

end Call

/-! ## The loop thread and one key -/

/-- A step that leaves the registry and the calls alone. -/
theorem subInv_loop {x : SubKey} {p : Pool SubPartition SubCall} {t : SubPartition}
    (h : SubInv x p) (hloop : LoopOk t) (hreg : t.registry = p.shared.registry)
    (hlocked : ∀ k ∈ p.calls, ∀ i ∈ k.conns, (t.conns i).available = true)
    (hcopy : t.loop.replays x = true → p.shared.keyed x = true)
    (hagree : ∀ i, (t.conns i).available = true →
      (t.conns i).outlook x = p.shared.keyed x ∨
      (p.shared.keyed x = true ∧ t.loop.willReplay i x = true) ∨
      ∃ k ∈ p.calls, k.willPost i x = true) : SubInv x ⟨t, p.calls ++ []⟩ := by
  have hkeyed : t.keyed x = p.shared.keyed x := by rw [SubPartition.keyed, hreg]; rfl
  rw [List.append_nil]
  refine ⟨hloop, hlocked, fun k hk op hop => ?_, fun hrep => ?_, fun i hi => ?_⟩
  · rw [hkeyed]
    exact h.key.ops k hk op hop
  · rw [hkeyed]
    exact hcopy hrep
  · rw [hkeyed]
    exact hagree i hi

/-- What the next event of a connection does to the others and to what an
available connection is going to be subscribed to. -/
theorem runItem_conns {s t : SubPartition} (h : LoopOk s) (hidle : s.loop = .idle) {i : ℕ}
    (hrun : s.runItem i = some t) :
    t.registry = s.registry ∧ (t.loop = .idle ∨ t.loop = .connecting i ∨ t.loop = .dropping i) ∧
    ∀ j, (t.conns j).available = (s.conns j).available ∧
      ((s.conns j).available = true → (t.conns j).outlook = (s.conns j).outlook) := by
  -- it is enough to look at `i`
  have hset : ∀ (c : SubConn), c.available = (s.conns i).available →
      ((s.conns i).available = true → c.outlook = (s.conns i).outlook) →
      ∀ j, ((s.setConn i c).conns j).available = (s.conns j).available ∧
        ((s.conns j).available = true → ((s.setConn i c).conns j).outlook = (s.conns j).outlook) := by
    intro c havail hout j
    by_cases hj : j = i
    · rw [hj, setConn_self]
      exact ⟨havail, hout⟩
    · rw [setConn_of_ne s c hj]
      exact ⟨rfl, fun _ => rfl⟩
  have hqueue := h.queue i
  simp only [SubPartition.runItem] at hrun
  split at hrun
  · cases hrun
  · rename_i op x rest hq
    cases hrun
    refine ⟨rfl, Or.inl hidle, hset _ ?_ fun ha => ?_⟩
    · unfold SubConn.runTask
      split <;> rfl
    · have hup : (s.conns i).link = .up ∨ (s.conns i).link = .closing := by
        rcases (h.avail i ha).2 with hl | hl | ⟨-, hl⟩
        · exact Or.inl hl
        · exact Or.inr hl
        · rw [hidle] at hl
          cases hl
      rcases hup with hl | hl <;> simp [SubConn.runTask, hl, SubConn.outlook, hq, LoopItem.apply]
  · rename_i rest hq
    cases hrun
    rw [hq] at hqueue
    refine ⟨rfl, Or.inr (Or.inl rfl), hset _ rfl fun ha => ?_⟩
    rcases (h.avail i ha).2 with hl | hl | ⟨hl, -⟩ <;> rw [hqueue.1] at hl <;> cases hl
  · rename_i rest hq
    cases hrun
    refine ⟨rfl, Or.inr (Or.inr rfl), hset _ rfl fun _ => ?_⟩
    simp [SubConn.outlook, hq, LoopItem.apply]

theorem subInv_item {x : SubKey} {p : Pool SubPartition SubCall} {i : ℕ} {t : SubPartition}
    (h : SubInv x p) (hidle : p.shared.loop = .idle) (hrun : p.shared.runItem i = some t) :
    SubInv x ⟨t, p.calls ++ []⟩ := by
  rcases runItem_conns h.loop hidle hrun with ⟨hreg, hloop, hconns⟩
  refine subInv_loop h (h.loop.runItem hidle hrun) hreg (fun k hk j hj => ?_) (fun hrep => ?_)
    (fun j hj => ?_)
  · rw [(hconns j).1]
    exact h.locked k hk j hj
  · rcases hloop with hl | hl | hl <;> rw [hl] at hrep <;> cases hrep
  · rw [(hconns j).1] at hj
    rw [(hconns j).2 hj]
    rcases h.key.agree j hj with hout | ⟨-, hrep⟩ | hwill
    · exact Or.inl hout
    · rw [hidle] at hrep
      cases hrep
    · exact Or.inr (Or.inr hwill)

theorem subInv_callback {x : SubKey} {p : Pool SubPartition SubCall} {t : SubPartition}
    (h : SubInv x p) (hrun : p.shared.runCallback (p.calls.all fun k => !k.locks) = some t) :
    SubInv x ⟨t, p.calls ++ []⟩ := by
  have hok := h.loop.runCallback hrun
  simp only [SubPartition.runCallback] at hrun
  split at hrun
  · cases hrun
  · rename_i i hloop
    split at hrun
    · -- the connection becomes available and will copy the registry
      cases hrun
      have hnew := h.loop.connecting i hloop
      refine subInv_loop h hok rfl (fun k hk j hj => ?_) (fun hrep => (nomatch hrep)) (fun j hj => ?_)
      · by_cases hji : j = i
        · rw [hji]
          simp
        · show ((p.shared.setConn i _).conns j).available = true
          rw [setConn_of_ne _ _ hji]
          exact h.locked k hk j hj
      · by_cases hji : j = i
        · cases hkeyed : p.shared.keyed x with
          | true => exact Or.inr (Or.inl ⟨rfl, by simp [LoopThread.willReplay, hji]⟩)
          | false =>
              refine Or.inl ?_
              rw [hji]
              show ((p.shared.setConn i _).conns i).outlook x = false
              rw [setConn_self]
              exact hnew.2.2.2 x
        · have hconn : ((p.shared.setConn i
              { p.shared.conns i with available := true }).conns j) = p.shared.conns j :=
            setConn_of_ne _ _ hji
          have hj' : (p.shared.conns j).available = true := by rw [← hconn]; exact hj
          show ((p.shared.setConn i
            { p.shared.conns i with available := true }).conns j).outlook x = _ ∨ _
          rw [hconn]
          rcases h.key.agree j hj' with hout | ⟨-, hrep⟩ | hwill
          · exact Or.inl hout
          · rw [hloop] at hrep
            cases hrep
          · exact Or.inr (Or.inr hwill)
    · cases hrun
  · rename_i i hloop
    cases hrun
    refine subInv_loop h hok rfl h.locked (fun hrep => ?_) (fun j hj => ?_)
    · rw [← mem_snapshot]
      simpa [LoopThread.replays] using hrep
    · rcases h.key.agree j hj with hout | ⟨hkeyed, hrep⟩ | hwill
      · exact Or.inl hout
      · refine Or.inr (Or.inl ⟨hkeyed, ?_⟩)
        rw [hloop] at hrep
        simp only [LoopThread.willReplay, Bool.and_eq_true, decide_eq_true_eq] at hrep ⊢
        exact ⟨hrep, (mem_snapshot _ _).mpr hkeyed⟩
      · exact Or.inr (Or.inr hwill)
  · rename_i i hloop
    cases hrun
    refine subInv_loop h hok rfl h.locked (fun hrep => (nomatch hrep)) (fun j hj => ?_)
    rcases h.key.agree j hj with hout | ⟨-, hrep⟩ | hwill
    · exact Or.inl hout
    · rw [hloop] at hrep
      simp [LoopThread.willReplay] at hrep
    · exact Or.inr (Or.inr hwill)
  · rename_i i y handler rest hloop
    cases hrun
    refine subInv_loop h hok rfl (fun k hk j hj => ?_) (fun hrep => ?_) (fun j hj => ?_)
    · exact (available_post _ _ _ _ _).trans (h.locked k hk j hj)
    · refine h.key.copy ?_
      rw [hloop]
      simp only [LoopThread.replays, List.map_cons, List.mem_cons, decide_eq_true_eq] at hrep ⊢
      exact Or.inr hrep
    · have hj' : (p.shared.conns j).available = true := (available_post _ _ _ _ _).symm.trans hj
      have hout' := outlook_post p.shared i j (.subscribe handler) x y
      by_cases hji : j = i ∧ y = x
      · -- the copy only holds what is in the registry
        refine Or.inl ?_
        rw [if_pos hji] at hout'
        refine hout'.trans ?_
        symm
        refine h.key.copy ?_
        rw [hloop]
        simp [LoopThread.replays, hji.2]
      · rw [if_neg hji] at hout'
        rcases h.key.agree j hj' with hout | ⟨hkeyed, hrep⟩ | hwill
        · exact Or.inl (hout'.trans hout)
        · refine Or.inr (Or.inl ⟨hkeyed, ?_⟩)
          rw [hloop] at hrep
          simp only [LoopThread.willReplay, List.map_cons, List.mem_cons, Bool.and_eq_true,
            decide_eq_true_eq] at hrep ⊢
          refine ⟨hrep.1, hrep.2.resolve_left fun heq => ?_⟩
          exact hji ⟨hrep.1.symm, heq.symm⟩
        · exact Or.inr (Or.inr hwill)
  · rename_i i hloop
    split at hrun
    · -- nobody posts while the connection is taken out
      rename_i hfree
      cases hrun
      refine subInv_loop h hok rfl (fun k hk j hj => ?_) (fun hrep => (nomatch hrep)) (fun j hj => ?_)
      · have hlock := List.all_eq_true.mp hfree k hk
        cases k with
        | update op y | lookup op y => cases hj
        | posting op y is => cases hlock
      · by_cases hji : j = i
        · rw [hji] at hj
          simp at hj
        · have hconn : ((p.shared.setConn i
              { p.shared.conns i with available := false, link := .down }).conns j) =
              p.shared.conns j := setConn_of_ne _ _ hji
          have hj' : (p.shared.conns j).available = true := by rw [← hconn]; exact hj
          show ((p.shared.setConn i
            { p.shared.conns i with available := false, link := .down }).conns j).outlook x = _ ∨ _
          rw [hconn]
          rcases h.key.agree j hj' with hout | ⟨-, hrep⟩ | hwill
          · exact Or.inl hout
          · rw [hloop] at hrep
            cases hrep
          · exact Or.inr (Or.inr hwill)
    · cases hrun

/-- A connection comes up or breaks. -/
theorem subInv_activate {x : SubKey} {p : Pool SubPartition SubCall} {i : ℕ} {c : SubConn}
    (h : SubInv x p) (hok : LoopOk (p.shared.setConn i c))
    (havail : c.available = (p.shared.conns i).available)
    (hout : (p.shared.conns i).available = true → c.outlook = (p.shared.conns i).outlook) :
    SubInv x ⟨p.shared.setConn i c, p.calls ++ []⟩ := by
  have hconns : ∀ j, ((p.shared.setConn i c).conns j).available = (p.shared.conns j).available ∧
      ((p.shared.conns j).available = true →
        ((p.shared.setConn i c).conns j).outlook = (p.shared.conns j).outlook) := by
    intro j
    by_cases hj : j = i
    · rw [hj, setConn_self]
      exact ⟨havail, hout⟩
    · rw [setConn_of_ne _ c hj]
      exact ⟨rfl, fun _ => rfl⟩
  refine subInv_loop h hok rfl (fun k hk j hj => ?_) h.key.copy (fun j hj => ?_)
  · rw [(hconns j).1]
    exact h.locked k hk j hj
  · rw [(hconns j).1] at hj
    rw [(hconns j).2 hj]
    exact h.key.agree j hj

theorem subInv_env {x : SubKey} {p : Pool SubPartition SubCall} {ev : SubEvent} {s : SubPartition}
    {ks : List SubCall} (h : SubInv x p) (henv : subEnv p ev = some (s, ks)) :
    SubInv x ⟨s, p.calls ++ ks⟩ := by
  cases ev with
  | call op y =>
      simp only [subEnv] at henv
      split at henv
      · cases henv
        exact subInv_loop h ⟨h.loop.queue, h.loop.avail, h.loop.connecting, h.loop.opening,
          h.loop.replaying, h.loop.dropping⟩ rfl h.locked h.key.copy h.key.agree
      · cases henv
        have hmem : ∀ k ∈ p.calls ++ [.update op y], k = .update op y ∨ k ∈ p.calls := by
          intro k hk
          rcases List.mem_append.mp hk with hk | hk
          · exact Or.inr hk
          · exact Or.inl (List.mem_singleton.mp hk)
        refine ⟨h.loop, fun k hk i hi => ?_, fun k hk op' hop' => ?_, h.key.copy, fun i hi => ?_⟩
        · rcases hmem k hk with rfl | hk
          · cases hi
          · exact h.locked k hk i hi
        · rcases hmem k hk with rfl | hk
          · cases hop'
          · exact h.key.ops k hk op' hop'
        · rcases h.key.agree i hi with hout | hrep | ⟨k, hk, hwill⟩
          · exact Or.inl hout
          · exact Or.inr (Or.inl hrep)
          · exact Or.inr (Or.inr ⟨k, List.mem_append_left _ hk, hwill⟩)
  | established i =>
      simp only [subEnv] at henv
      split at henv
      · rename_i hdown
        cases henv
        have hqueue := h.loop.queue i
        rw [hdown.2] at hqueue
        refine subInv_activate h (h.loop.activate hqueue.established rfl
          (Or.inl ⟨rfl, hdown.2, hdown.1⟩) (fun hl => (nomatch hl))) rfl (fun ha => ?_)
        rcases (h.loop.avail i ha).2 with hl | hl | ⟨hl, -⟩ <;> rw [hdown.2] at hl <;> cases hl
      · cases henv
  | broken i =>
      simp only [subEnv] at henv
      split at henv
      · rename_i hup
        cases henv
        have hqueue := h.loop.queue i
        rw [hup] at hqueue
        have hout : ({ p.shared.conns i with
            link := .closing, queue := (p.shared.conns i).queue ++ [.disconnected] } :
              SubConn).outlook = (p.shared.conns i).outlook :=
          outlook_append (p.shared.conns i) .disconnected
        exact subInv_activate h (h.loop.activate hqueue.broken rfl (Or.inr ⟨rfl, hup⟩)
          (fun _ => hout)) rfl (fun _ => hout)
      · cases henv
  | item i =>
      simp only [subEnv] at henv
      split at henv
      · rename_i hidle
        rcases Option.map_eq_some_iff.mp henv with ⟨t, ht, heq⟩
        cases heq
        exact subInv_item h hidle ht
      · cases henv
  | callback =>
      rcases Option.map_eq_some_iff.mp henv with ⟨t, ht, heq⟩
      cases heq
      exact subInv_callback h ht

/-! ## Runs -/

theorem subInv_run {servers : ℕ} {ls : List (Sched Unit SubEvent)} {p : Pool SubPartition SubCall}
    (hrun : subSystem.machine.run (subInit servers) ls = some p)
    (hok : subSystem.machine.Meets Separated (subInit servers) ls) (x : SubKey) : SubInv x p := by
  refine subSystem.run_invariant (SubInv x) ?_ ?_ ?_ hok hrun
  · intro p q k rest e s ks h hp hcond hnext hs hq
    exact subInv_call h hp hcond (Option.some.inj hnext) hs hq
  · intro p ev s ks h _ henv
    exact subInv_env h henv
  · have hidle : (subInit servers).shared.loop = .idle := rfl
    refine ⟨⟨fun i => Or.inl rfl, fun i hi => (nomatch hi), fun i hi => (nomatch hi),
      fun i hi => (nomatch hi), fun i hi => ?_, fun i hi => (nomatch hi)⟩,
      fun k hk => (nomatch hk), fun k hk => (nomatch hk), fun hrep => (nomatch hrep),
      fun i hi => (nomatch hi)⟩
    rw [hidle] at hi
    rcases hi with hi | ⟨es, hi⟩ <;> cases hi

/-- A connection whose tasks have run is subscribed to what it was going to be. -/
theorem foldl_apply_of_no_task {l : Link} {q : List LoopItem} (h : QueueOk l q)
    (hl : l ≠ .opening) (htasks : ∀ op x, LoopItem.task op x ∉ q) (subs : SubKey → Bool) :
    q.foldl LoopItem.apply subs = subs := by
  induction q generalizing l with
  | nil => rfl
  | cons t q ih =>
      cases t with
      | task op x => exact absurd List.mem_cons_self (htasks op x)
      | connected => exact absurd h.1 hl
      | disconnected =>
          exact ih h.2 (fun heq => (nomatch heq)) fun op x hx =>
            htasks op x (List.mem_cons_of_mem _ hx)

/-- **The subscriptions are kept.** In every interleaving that meets
`Separated`, once all calls have returned and the loop thread has run the tasks
of an available connection, it is subscribed to exactly the registry. -/
theorem subscriptions_kept (servers : ℕ) (ls : List (Sched Unit SubEvent))
    (p : Pool SubPartition SubCall)
    (hrun : subSystem.machine.run (subInit servers) ls = some p)
    (hok : subSystem.machine.Meets Separated (subInit servers) ls) (hcalls : p.calls = [])
    (hidle : p.shared.loop = .idle) :
    ∀ i, (p.shared.conns i).available = true →
      (∀ op x, LoopItem.task op x ∉ (p.shared.conns i).queue) →
      ∀ x, (p.shared.conns i).subs x = p.shared.keyed x := by
  intro i hi htasks x
  have h := subInv_run hrun hok x
  have hopening : (p.shared.conns i).link ≠ .opening := by
    rcases (h.loop.avail i hi).2 with hl | hl | ⟨hl, -⟩ <;> rw [hl] <;> exact fun heq => (nomatch heq)
  have hsubs : (p.shared.conns i).outlook = (p.shared.conns i).subs :=
    foldl_apply_of_no_task (h.loop.queue i) hopening htasks _
  rw [← hsubs]
  rcases h.key.agree i hi with hout | ⟨-, hrep⟩ | ⟨k, hk, -⟩
  · exact hout
  · rw [hidle] at hrep
    cases hrep
  · rw [hcalls] at hk
    cases hk

/-- A channel is subscribed before the connection is up and replayed, a pattern
is subscribed after it, and the channel is unsubscribed. -/
def orderlyConnect : List (Sched Unit SubEvent) :=
  [.env (.call (.subscribe 7) ⟨.sub, [97]⟩), .call 0 (), .call 0 (), .env (.established 0),
   .env (.item 0), .env .callback, .env .callback, .env .callback, .env .callback, .env (.item 0),
   .env (.call (.subscribe 8) ⟨.psub, [98]⟩), .call 0 (), .call 0 (), .call 0 (), .call 0 (),
   .env (.item 0), .env (.call .unsubscribe ⟨.sub, [97]⟩), .call 0 (), .call 0 (), .call 0 (),
   .call 0 (), .env (.item 0)]

theorem subscriptions_kept_orderlyConnect :
    ∃ p, subSystem.machine.run (subInit 1) orderlyConnect = some p ∧
      (p.shared.conns 0).available = true ∧ p.shared.keyed ⟨.psub, [98]⟩ = true ∧
      p.shared.keyed ⟨.sub, [97]⟩ = false ∧
      ∀ x, (p.shared.conns 0).subs x = p.shared.keyed x := by
  have hsome : (subSystem.machine.run (subInit 1) orderlyConnect).isSome := by decide
  have hok : subSystem.machine.Meets Separated (subInit 1) orderlyConnect := by decide
  have hview : (subSystem.machine.run (subInit 1) orderlyConnect).map (fun p =>
      (p.calls, p.shared.loop, (p.shared.conns 0).queue, (p.shared.conns 0).available,
        p.shared.keyed ⟨.psub, [98]⟩, p.shared.keyed ⟨.sub, [97]⟩)) =
      some ([], .idle, [], true, true, false) := by decide
  rcases Option.isSome_iff_exists.mp hsome with ⟨p, hp⟩
  rw [hp, Option.map_some, Option.some.injEq] at hview
  simp only [Prod.mk.injEq] at hview
  rcases hview with ⟨hcalls, hloop, hqueue, havail, hb, ha⟩
  refine ⟨p, hp, havail, hb, ha, ?_⟩
  exact subscriptions_kept 1 orderlyConnect p hp hok hcalls hloop 0 havail (by simp [hqueue])

/-- The connection has copied the registry; an unsubscribe removes the channel
and is posted; then the copy is replayed. -/
def lateReplay : List (Sched Unit SubEvent) :=
  [.env (.call (.subscribe 7) ⟨.sub, [97]⟩), .call 0 (), .call 0 (), .env (.established 0),
   .env (.item 0), .env .callback, .env .callback, .env (.call .unsubscribe ⟨.sub, [97]⟩),
   .call 0 (), .call 0 (), .call 0 (), .call 0 (), .env .callback, .env .callback, .env (.item 0),
   .env (.item 0)]

/-- Without the condition a connection can stay subscribed to a channel that is
not in the registry. -/
theorem subscription_resurrected :
    ¬ ∀ (servers : ℕ) (ls : List (Sched Unit SubEvent)) (p : Pool SubPartition SubCall),
      subSystem.machine.run (subInit servers) ls = some p → p.calls = [] →
      p.shared.loop = .idle →
      ∀ i, (p.shared.conns i).available = true →
        (∀ op x, LoopItem.task op x ∉ (p.shared.conns i).queue) →
        ∀ x, (p.shared.conns i).subs x = p.shared.keyed x := by
  intro hclaim
  have hsome : (subSystem.machine.run (subInit 1) lateReplay).isSome := by decide
  have hview : (subSystem.machine.run (subInit 1) lateReplay).map (fun p =>
      (p.calls, p.shared.loop, (p.shared.conns 0).queue, (p.shared.conns 0).available,
        (p.shared.conns 0).subs ⟨.sub, [97]⟩, p.shared.keyed ⟨.sub, [97]⟩)) =
      some ([], .idle, [], true, true, false) := by decide
  rcases Option.isSome_iff_exists.mp hsome with ⟨p, hp⟩
  rw [hp, Option.map_some, Option.some.injEq] at hview
  simp only [Prod.mk.injEq] at hview
  rcases hview with ⟨hcalls, hloop, hqueue, havail, hsubs, hkeyed⟩
  have heq := hclaim 1 lateReplay p hp hcalls hloop 0 havail (by simp [hqueue]) ⟨.sub, [97]⟩
  rw [hsubs, hkeyed] at heq
  cases heq

end BcmServer.Redis
