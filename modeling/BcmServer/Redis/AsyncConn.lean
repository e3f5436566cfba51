import BcmServer.Lts.Run
import BcmServer.Util.Bytes
import Mathlib.Logic.Function.Basic

/-!
# BcmServer.Redis.AsyncConn — the redis connection and its hiredis context

`AsyncConn` drives one hiredis context from an event loop. Requests are posted
to the loop as tasks and run later; between the post and the run the context
can connect, break, be replaced by the reconnect timer or be shut down.

hiredis is modelled by what its documentation says of a context: it is
connecting, connected, draining (`REDIS_DISCONNECTING`) or freed; the connect
callback comes once; a failed connect frees the context without a disconnect
callback; a broken or drained connection answers its pending replies with NULL,
calls the disconnect callback and frees the context. The loop may run the
posted tasks and the callbacks in any order.

* `commands_on_live_context`: every command reaches hiredis on a connected
  context, as long as subscription tasks run only while the connection is
  up and a failed AUTH finds a reconnect already pending (`Orderly`).
* `command_on_null_context`: the code does not ensure the first: a subscribe
  posted before a disconnect runs after it, with `m_ac` null.
-/

namespace BcmServer.Redis

open BcmServer.Util BcmServer.Lts

/-- `REDIS_OK` -/
def redisOk : Int := 0

/-- `REDIS_ERR` -/
def redisErr : Int := -1

/-- `REDIS_ERR_OTHER` -/
def redisErrOther : Int := 2

/-- `redis::Reply`, by the type of the reply. -/
inductive Reply where
  | null
  | integer (n : Int)
  | error (text : Bytes)
  | status (text : Bytes)
  | string (text : Bytes)
deriving DecidableEq, Repr

namespace Reply

/-- `Reply::isError` -/
def isError : Reply → Bool
  | error _ => true
  | null | integer _ | status _ | string _ => false

/-- `Reply::isInteger` -/
def isInteger : Reply → Bool
  | integer _ => true
  | null | error _ | status _ | string _ => false

/-- `Reply::getInteger` -/
def getInteger : Reply → Int
  | integer n => n
  | null | error _ | status _ | string _ => 0

end Reply

inductive ConnectionState where
  | disconnected
  | connecting
  | connected
  | reconnecting
  | disconnecting
deriving DecidableEq, Repr

/-- An `AsyncCmd`, by its reply handler: the AUTH of a new connection, or the
command of a caller. -/
inductive AsyncCmd where
  | auth (isReconnect : Bool)
  | user (handler : ℕ)
deriving DecidableEq, Repr

/-- `AsyncCmd::run`, up to hiredis: the status the handler gets at once, or
`none` when the command was accepted and its reply is awaited. -/
def AsyncCmd.run (state : ConnectionState) (res : Int) : Option Int :=
  if state ≠ .connected then some redisErr
  else if res ≠ redisOk then some res
  else none

/-- The commands that go to `redisAsyncCommand` without a look at the state. -/
inductive SubCommand where
  | subscribe (chan : Bytes) (handler : ℕ)
  | psubscribe (chan : Bytes) (handler : ℕ)
  | unsubscribe (chan : Bytes)
  | punsubscribe (chan : Bytes)
  | psubscribeBatch (chans : List Bytes) (handler : ℕ)
  | punsubscribeBatch (chans : List Bytes)
deriving DecidableEq, Repr

/-- A task posted to the event loop. -/
inductive Task where
  | start (handler : ℕ)
  | shutdown (handler : ℕ)
  | sub (c : SubCommand)
  | cmd (c : AsyncCmd)
deriving DecidableEq, Repr

/-- A call of one of the handlers given to the connection. -/
inductive Callback where
  | connect (handler : ℕ) (status : Int)
  | reconnect (status : Int)
  | disconnect (status : Int)
  | shutdown (handler : Option ℕ) (status : Int)
  | reply (handler : ℕ) (status : Int) (reply : Reply)
  | onError (handler : ℕ) (code : Int)
  | onSubscribe (handler : ℕ) (chan : Bytes)
  | onUnsubscribe (handler : ℕ) (chan : Bytes)
  | onMessage (handler : ℕ) (chan msg : Bytes)
deriving DecidableEq, Repr

/-- A `redisAsyncContext`: the flags `REDIS_CONNECTED` and
`REDIS_DISCONNECTING`, whether it was freed, and the commands whose reply is
pending. -/
structure Context where
  connected : Bool
  disconnecting : Bool
  freed : Bool
  replies : List AsyncCmd
deriving DecidableEq, Repr

namespace Context

/-- What `redisAsyncConnect` returns. -/
def new : Context := ⟨false, false, false, []⟩

/-- Memory that holds no context. -/
def none : Context := ⟨false, false, true, []⟩

/-- A context with a connection. -/
def live (c : Context) : Bool := c.connected && !c.freed

end Context

/-- The pointer `m_ac`. The constructor does not set it. -/
inductive ContextPtr where
  | wild
  | null
  | ctx (c : ℕ)
deriving DecidableEq, Repr

/-- `AsyncConnImpl`, with the hiredis contexts it made. -/
structure AsyncConn where
  password : Bytes
  /-- `m_ac` -/
  ac : ContextPtr
  contexts : ℕ → Context
  /-- number of contexts made -/
  made : ℕ
  connectionState : ConnectionState
  /-- `m_reconnectTask` is set -/
  reconnectTask : Bool
  connectHandlers : List ℕ
  shutdownHandlers : List (Option ℕ)
  subHandlerMap : Bytes → Option ℕ
  /-- posted and not yet run -/
  tasks : List Task
  /-- calls of the handlers, oldest first -/
  callbacks : List Callback
  /-- commands given to hiredis, with the context `m_ac` referred to -/
  issued : List (Task × Option Context)

namespace AsyncConn

/-- The constructor of `AsyncConnImpl`. -/
def initial (password : Bytes) : AsyncConn where
  password := password
  ac := .wild
  contexts := fun _ => .none
  made := 0
  connectionState := .disconnected
  reconnectTask := false
  connectHandlers := []
  shutdownHandlers := []
  subHandlerMap := fun _ => none
  tasks := []
  callbacks := []
  issued := []

/-- Write one context. -/
def setContext (s : AsyncConn) (c : ℕ) (k : Context) : AsyncConn :=
  { s with contexts := Function.update s.contexts c k }

/-- Call some handlers. -/
def notify (s : AsyncConn) (cs : List Callback) : AsyncConn :=
  { s with callbacks := s.callbacks ++ cs }

/-! ## Connecting -/

/-- `AsyncConnImpl::startAsyncConnect` -/
def startAsyncConnect (s : AsyncConn) : AsyncConn :=
  { s with
    ac := .ctx s.made
    contexts := Function.update s.contexts s.made .new
    made := s.made + 1 }

/-- `AsyncConnImpl::startConnect` -/
def startConnect (s : AsyncConn) (h : ℕ) : AsyncConn :=
  match s.connectionState with
  | .disconnected =>
      startAsyncConnect
        { s with connectionState := .connecting, connectHandlers := s.connectHandlers ++ [h] }
  | .connecting => { s with connectHandlers := s.connectHandlers ++ [h] }
  | .connected | .reconnecting | .disconnecting => s.notify [.connect h redisErrOther]

/-- `AsyncConnImpl::startReconnect`: sets the timer unless it is set. -/
def startReconnect (s : AsyncConn) : AsyncConn :=
  if s.reconnectTask then s else { s with reconnectTask := true }

/-- The reconnect timer fires. -/
def onReconnectTimer (s : AsyncConn) : AsyncConn :=
  { s.startAsyncConnect with reconnectTask := false }

/-! ## Disconnecting -/

/-- `AsyncConnImpl::onDisconnect` -/
def onDisconnect (s : AsyncConn) (status : Int) : AsyncConn :=
  let s' := { s with connectionState := .disconnected, ac := .null }
  if status ≠ redisOk ∧ s.connectionState ≠ .disconnecting then
    startReconnect { s'.notify [.disconnect status] with connectionState := .reconnecting }
  else
    { s'.notify (s.shutdownHandlers.map fun h => .shutdown h status) with shutdownHandlers := [] }

/-- The handlers `AsyncConnImpl::onAuthed` tells the outcome. -/
def notifyAuthed (s : AsyncConn) (status : Int) (isReconnect : Bool) : AsyncConn :=
  if isReconnect then s.notify [.reconnect status]
  else { s.notify (s.connectHandlers.map fun h => .connect h status) with connectHandlers := [] }

/-- `AsyncCmd::onComplete` with a NULL reply. `onAuthed` takes it for a success:
a null reply is no error. -/
def completeNull (s : AsyncConn) : AsyncCmd → AsyncConn
  | .auth isReconnect => s.notifyAuthed redisOk isReconnect
  | .user h => s.notify [.reply h redisOk .null]

/-- hiredis ends a context: the pending replies are answered, a context that
was connected has its disconnect callback called, and it is freed. -/
def freeContext (s : AsyncConn) (c : ℕ) (status : Int) : AsyncConn :=
  let k := s.contexts c
  let s' := k.replies.foldl completeNull s
  (if k.connected then s'.onDisconnect status else s').setContext c .none

/-- `redisAsyncDisconnect(m_ac)`. A context with pending replies, or one whose
callback is running (`busy`), is only marked. On a pointer to no context the
call has no defined effect; nothing of the connection changes. -/
def redisAsyncDisconnect (s : AsyncConn) (busy : Option ℕ) : AsyncConn :=
  match s.ac with
  | .wild | .null => s
  | .ctx c =>
      if (s.contexts c).freed then s
      else
        let s' := s.setContext c { s.contexts c with disconnecting := true }
        if busy = some c ∨ (s.contexts c).replies ≠ [] then s' else s'.freeContext c redisOk

/-- `AsyncConnImpl::startDisconnect` -/
def startDisconnect (s : AsyncConn) (h : Option ℕ) (busy : Option ℕ) : AsyncConn :=
  let s' := { s with reconnectTask := false }
  match s.connectionState with
  | .connected =>
      redisAsyncDisconnect
        { s' with connectionState := .disconnecting, shutdownHandlers := s.shutdownHandlers ++ [h] }
        busy
  | .disconnecting => { s' with shutdownHandlers := s.shutdownHandlers ++ [h] }
  | .disconnected | .connecting | .reconnecting =>
      if s.ac ≠ .null then
        let s'' := s'.redisAsyncDisconnect busy
        notify { s'' with connectionState := .disconnected, ac := .null } [.shutdown h redisOk]
      else
        notify { s' with connectionState := .disconnected } [.shutdown h redisOk]

/-! ## Commands -/

/-- `AsyncConnImpl::onAuthed` -/
def onAuthed (s : AsyncConn) (status : Int) (reply : Reply) (isReconnect : Bool)
    (busy : Option ℕ) : AsyncConn :=
  if status ≠ redisOk then s.startReconnect
  else if reply.isError then (s.startDisconnect none busy).notifyAuthed redisErr isReconnect
  else s.notifyAuthed status isReconnect

/-- The reply handler of a command. -/
def onReply (s : AsyncConn) (status : Int) (reply : Reply) (busy : Option ℕ) :
    AsyncCmd → AsyncConn
  | .auth isReconnect => s.onAuthed status reply isReconnect busy
  | .user h => s.notify [.reply h status reply]

/-- The context `m_ac` refers to. -/
def context? (s : AsyncConn) : Option Context :=
  match s.ac with
  | .wild | .null => none
  | .ctx c => some (s.contexts c)

/-- A command is given to hiredis. -/
def issue (s : AsyncConn) (t : Task) : AsyncConn :=
  { s with issued := s.issued ++ [(t, s.context?)] }

/-- What hiredis answers to a command: it takes none on a context that is being
closed, and `res` otherwise. -/
def accept (s : AsyncConn) (res : Int) : Int :=
  match s.context? with
  | none => redisErr
  | some k => if k.disconnecting || k.freed then redisErr else res

/-- The task of a subscription command. -/
def runSub (s : AsyncConn) (c : SubCommand) (res : Int) : AsyncConn :=
  let s' := s.issue (.sub c)
  let failed : Bool := s.accept res ≠ redisOk
  match c with
  | .subscribe chan h | .psubscribe chan h =>
      if failed then s'.notify [.onError h (s.accept res)]
      else { s' with subHandlerMap := Function.update s.subHandlerMap chan (some h) }
  | .unsubscribe chan | .punsubscribe chan =>
      match s.subHandlerMap chan with
      | none => s'
      | some h => if failed then s'.notify [.onError h (s.accept res)] else s'
  | .psubscribeBatch chans h =>
      if failed then s'.notify [.onError h (s.accept res)]
      else
        { s' with
          subHandlerMap := fun chan => if chan ∈ chans then some h else s.subHandlerMap chan }
  | .punsubscribeBatch _ => s'

/-- The task of an `AsyncCmd`. -/
def runCmd (s : AsyncConn) (c : AsyncCmd) (res : Int) : AsyncConn :=
  match AsyncCmd.run s.connectionState (s.accept res) with
  | some status =>
      let s' := if s.connectionState ≠ .connected then s else s.issue (.cmd c)
      s'.onReply status .null none c
  | none =>
      let s' := s.issue (.cmd c)
      match s.ac with
      | .wild | .null => s'
      | .ctx d =>
          s'.setContext d { s.contexts d with replies := (s.contexts d).replies ++ [c] }

/-- Run one task. -/
def runTask (s : AsyncConn) (res : Int) : Task → AsyncConn
  | .start h => s.startConnect h
  | .shutdown h => s.startDisconnect (some h) none
  | .sub c => s.runSub c res
  | .cmd c => s.runCmd c res

/-! ## The callbacks of hiredis -/

/-- `AsyncConnImpl::onConnect`. `formatted` tells whether the AUTH command could
be formatted. -/
def onConnect (s : AsyncConn) (status : Int) (formatted : Bool) : AsyncConn :=
  if status ≠ redisOk then s.startReconnect
  else
    let s' := { s with connectionState := .connected }
    if s.password ≠ [] then
      if formatted then
        { s' with tasks := s.tasks ++ [.cmd (.auth (s.connectionState = .reconnecting))] }
      else s'
    else
      match s.connectionState with
      | .connecting => s'.notifyAuthed status false
      | .reconnecting => s'.notifyAuthed status true
      | .disconnected | .connected | .disconnecting => s'

/-- The connect callback of context `c`. -/
def handleConnect (s : AsyncConn) (c : ℕ) (status : Int) (formatted : Bool) : AsyncConn :=
  if status ≠ redisOk then (s.onConnect status formatted).freeContext c status
  else (s.setContext c { s.contexts c with connected := true }).onConnect status formatted

/-- `AsyncCmd::onComplete` of the oldest command on context `c`. A context that
is being closed ends with its last reply. -/
def handleReply (s : AsyncConn) (c : ℕ) (cmd : AsyncCmd) (rest : List AsyncCmd)
    (reply : Reply) : AsyncConn :=
  let s' := (s.setContext c { s.contexts c with replies := rest }).onReply redisOk reply (some c) cmd
  if (s'.contexts c).disconnecting ∧ (s'.contexts c).replies = [] ∧ (s'.contexts c).freed = false then
    s'.freeContext c redisOk
  else s'

/-- What a subscribed context receives. -/
inductive SubscriptionReply where
  | subscribed (chan : Bytes)
  | unsubscribed (chan : Bytes)
  | message (chan msg : Bytes)
  | pmessage (pattern chan msg : Bytes)
deriving DecidableEq, Repr

/-- `AsyncConnImpl::handleSubscription` -/
def handleSubscription (s : AsyncConn) : SubscriptionReply → AsyncConn
  | .subscribed chan =>
      match s.subHandlerMap chan with
      | none => s
      | some h => s.notify [.onSubscribe h chan]
  | .unsubscribed chan =>
      match s.subHandlerMap chan with
      | none => s
      | some h =>
          { s.notify [.onUnsubscribe h chan] with
            subHandlerMap := Function.update s.subHandlerMap chan none }
  | .message chan msg =>
      match s.subHandlerMap chan with
      | none => s
      | some h => s.notify [.onMessage h chan msg]
  | .pmessage pattern chan msg =>
      match s.subHandlerMap pattern with
      | none => s
      | some h => s.notify [.onMessage h chan msg]

/-! ## The event loop -/

/-- The public operations of `AsyncConn`. -/
inductive Request where
  | start (handler : ℕ)
  | shutdown (handler : ℕ)
  | exec (handler : ℕ) (formatted : Bool)
  | sub (c : SubCommand)
deriving DecidableEq, Repr

/-- The tasks a request posts. A command that cannot be formatted and an empty
batch post none. -/
def Request.tasks : Request → List Task
  | start h => [.start h]
  | shutdown h => [.shutdown h]
  | exec h formatted => if formatted then [.cmd (.user h)] else []
  | sub (.psubscribeBatch [] _) | sub (.punsubscribeBatch []) => []
  | sub c => [.sub c]

/-- What happens next: a request, the `i`-th posted task, the timer, or a
callback of a context. -/
inductive Event where
  | request (r : Request)
  | run (i : ℕ) (res : Int)
  | timer
  | connect (c : ℕ) (status : Int) (formatted : Bool)
  | reply (c : ℕ) (reply : Reply)
  | disconnect (c : ℕ)
  | subscription (c : ℕ) (reply : SubscriptionReply)
deriving DecidableEq, Repr

def step (s : AsyncConn) : Event → Option AsyncConn
  | .request r => some { s with tasks := s.tasks ++ r.tasks }
  | .run i res =>
      match s.tasks[i]? with
      | none => none
      | some t => some (runTask { s with tasks := s.tasks.eraseIdx i } res t)
  | .timer => if s.reconnectTask then some s.onReconnectTimer else none
  | .connect c status formatted =>
      if (s.contexts c).freed ∨ (s.contexts c).connected then none
      else some (s.handleConnect c status formatted)
  | .reply c reply =>
      match (s.contexts c).replies with
      | [] => none
      | cmd :: rest => if (s.contexts c).live then some (s.handleReply c cmd rest reply) else none
  | .disconnect c => if (s.contexts c).live then some (s.freeContext c redisErr) else none
  | .subscription c reply => if (s.contexts c).live then some (s.handleSubscription reply) else none

def machine : Machine AsyncConn Event := ⟨step⟩

/-! ## The condition -/

/-- A subscription task runs only while the connection is up (connected, or
draining after a shutdown), and an AUTH that cannot be issued finds the
reconnect timer set. -/
def orderly (s : AsyncConn) : Event → Bool
  | .run i res =>
      match s.tasks[i]? with
      | some (.sub _) => s.connectionState = .connected || s.connectionState = .disconnecting
      | some (.cmd (.auth _)) =>
          s.reconnectTask || (s.connectionState = .connected && res = redisOk)
      | some (.cmd (.user _)) | some (.start _) | some (.shutdown _) | none => true
  | .request _ | .timer | .connect _ _ _ | .reply _ _ | .disconnect _ | .subscription _ _ => true

def Orderly (s : AsyncConn) (e : Event) : Prop := s.orderly e = true

instance (s : AsyncConn) (e : Event) : Decidable (Orderly s e) :=
  inferInstanceAs (Decidable (s.orderly e = true))

/-- A command was issued on a context with a connection. -/
def OnLive (e : Task × Option Context) : Prop := ∃ k, e.2 = some k ∧ k.live = true

/-! ## What the callers' handlers leave alone -/

/-- The link is as before: the pointer, the contexts, the state, the timer, and
the commands issued. -/
structure SameLink (s t : AsyncConn) : Prop where
  ac : t.ac = s.ac
  contexts : t.contexts = s.contexts
  state : t.connectionState = s.connectionState
  timer : t.reconnectTask = s.reconnectTask
  issued : t.issued = s.issued

theorem SameLink.refl (s : AsyncConn) : SameLink s s := ⟨rfl, rfl, rfl, rfl, rfl⟩

theorem SameLink.trans {s t u : AsyncConn} (h : SameLink s t) (h' : SameLink t u) :
    SameLink s u :=
  ⟨h'.ac.trans h.ac, h'.contexts.trans h.contexts, h'.state.trans h.state,
    h'.timer.trans h.timer, h'.issued.trans h.issued⟩

theorem sameLink_notify (s : AsyncConn) (cs : List Callback) : SameLink s (s.notify cs) :=
  ⟨rfl, rfl, rfl, rfl, rfl⟩

theorem sameLink_notifyAuthed (s : AsyncConn) (status : Int) (isReconnect : Bool) :
    SameLink s (s.notifyAuthed status isReconnect) := by
  cases isReconnect <;> exact ⟨rfl, rfl, rfl, rfl, rfl⟩

theorem sameLink_completeNull (s : AsyncConn) (c : AsyncCmd) : SameLink s (s.completeNull c) := by
  cases c with
  | auth isReconnect => exact sameLink_notifyAuthed s redisOk isReconnect
  | user h => exact sameLink_notify s _

theorem sameLink_flush (s : AsyncConn) (cs : List AsyncCmd) :
    SameLink s (cs.foldl completeNull s) := by
  induction cs generalizing s with
  | nil => exact SameLink.refl s
  | cons c cs ih => exact (sameLink_completeNull s c).trans (ih _)

theorem sameLink_handleSubscription (s : AsyncConn) (r : SubscriptionReply) :
    SameLink s (s.handleSubscription r) := by
  cases r <;> simp only [handleSubscription] <;> split <;> exact ⟨rfl, rfl, rfl, rfl, rfl⟩

/-! ## The invariant -/

/-- No context is alive. -/
def Idle (s : AsyncConn) : Prop := ∀ c, (s.contexts c).freed = true

/-- `m_ac` refers to context `c`, which is `k`, and no other is alive. -/
def Only (s : AsyncConn) (c : ℕ) (k : Context) : Prop :=
  s.ac = .ctx c ∧ s.contexts c = k ∧ ∀ d, d ≠ c → (s.contexts d).freed = true

/-- The phases of a connection: what the state promises about the context and
the timer. -/
inductive Phase (s : AsyncConn) : Prop where
  | disconnected (hstate : s.connectionState = .disconnected) (htimer : s.reconnectTask = false)
      (hidle : Idle s)
  | waiting (hstate : s.connectionState = .connecting ∨ s.connectionState = .reconnecting)
      (htimer : s.reconnectTask = true) (hidle : Idle s)
  | connecting (hstate : s.connectionState = .connecting ∨ s.connectionState = .reconnecting)
      (htimer : s.reconnectTask = false) (c : ℕ) (honly : Only s c .new)
  | connected (hstate : s.connectionState = .connected) (htimer : s.reconnectTask = false)
      (c : ℕ) (replies : List AsyncCmd) (honly : Only s c ⟨true, false, false, replies⟩)
  | disconnecting (hstate : s.connectionState = .disconnecting) (htimer : s.reconnectTask = false)
      (c : ℕ) (replies : List AsyncCmd) (honly : Only s c ⟨true, true, false, replies⟩)

theorem Phase.congr {s t : AsyncConn} (h : SameLink s t) (hphase : Phase s) : Phase t := by
  cases hphase with
  | disconnected hstate htimer hidle =>
      refine .disconnected (h.state.trans hstate) (h.timer.trans htimer) ?_
      rwa [Idle, h.contexts]
  | waiting hstate htimer hidle =>
      refine .waiting (by rwa [h.state]) (h.timer.trans htimer) ?_
      rwa [Idle, h.contexts]
  | connecting hstate htimer c honly =>
      refine .connecting (by rwa [h.state]) (h.timer.trans htimer) c ?_
      rwa [Only, h.ac, h.contexts]
  | connected hstate htimer c replies honly =>
      refine .connected (h.state.trans hstate) (h.timer.trans htimer) c replies ?_
      rwa [Only, h.ac, h.contexts]
  | disconnecting hstate htimer c replies honly =>
      refine .disconnecting (h.state.trans hstate) (h.timer.trans htimer) c replies ?_
      rwa [Only, h.ac, h.contexts]

/-- A live context is the one `m_ac` refers to. -/
theorem Only.eq_of_alive {s : AsyncConn} {c d : ℕ} {k : Context} (h : Only s c k)
    (halive : (s.contexts d).freed = false) : d = c := by
  by_contra hne
  rw [h.2.2 d hne] at halive
  cases halive

theorem not_idle_of_alive {s : AsyncConn} {d : ℕ} (halive : (s.contexts d).freed = false) :
    ¬ Idle s := by
  intro hidle
  rw [hidle d] at halive
  cases halive

@[simp] theorem setContext_self (s : AsyncConn) (c : ℕ) (k : Context) :
    (s.setContext c k).contexts c = k := by
  simp [setContext]

theorem setContext_of_ne (s : AsyncConn) {c d : ℕ} (k : Context) (h : d ≠ c) :
    (s.setContext c k).contexts d = s.contexts d := by
  simp [setContext, h]

/-- Writing the context of `m_ac`. -/
theorem Only.setContext {s : AsyncConn} {c : ℕ} {k : Context} (h : Only s c k) (k' : Context) :
    Only (s.setContext c k') c k' := by
  refine ⟨h.1, setContext_self s c k', fun d hd => ?_⟩
  rw [setContext_of_ne s k' hd]
  exact h.2.2 d hd

theorem Only.idle_none {s t : AsyncConn} {c : ℕ} {k : Context} (h : Only s c k)
    (ht : t.contexts = s.contexts) : Idle (t.setContext c .none) := by
  intro d
  by_cases hd : d = c
  · rw [hd, setContext_self]
    rfl
  · rw [setContext_of_ne t .none hd, ht]
    exact h.2.2 d hd

/-! ## The contexts end -/

/-- A context that never connected ends without a callback. -/
theorem freeContext_new {s : AsyncConn} {c : ℕ} {k : Context} (h : Only s c k)
    (hk : k.connected = false) (hreplies : k.replies = []) (status : Int) :
    s.freeContext c status = s.setContext c .none := by
  simp [freeContext, h.2.1, hk, hreplies]

/-- What is left of a connection when its context ends. -/
structure Ended (s t : AsyncConn) (state : ConnectionState) (timer : Bool) : Prop where
  idle : Idle t
  state : t.connectionState = state
  timer : t.reconnectTask = timer
  issued : t.issued = s.issued

theorem onDisconnect_issued (s : AsyncConn) (status : Int) :
    (s.onDisconnect status).issued = s.issued := by
  simp only [onDisconnect, startReconnect]
  repeat' split
  all_goals rfl

theorem onDisconnect_contexts (s : AsyncConn) (status : Int) :
    (s.onDisconnect status).contexts = s.contexts := by
  simp only [onDisconnect, startReconnect]
  repeat' split
  all_goals rfl

/-- A connection that breaks is to be restored. -/
theorem freeContext_broken {s : AsyncConn} {c : ℕ} {k : Context} (h : Only s c k)
    (hk : k.connected = true) (hstate : s.connectionState ≠ .disconnecting) :
    Ended s (s.freeContext c redisErr) .reconnecting true := by
  have hflush := sameLink_flush s k.replies
  simp only [freeContext, h.2.1, hk, if_true]
  generalize k.replies.foldl completeNull s = u at hflush ⊢
  have hu : u.connectionState ≠ .disconnecting := by rwa [hflush.state]
  refine ⟨h.idle_none ?_, ?_, ?_, ?_⟩
  · rw [onDisconnect_contexts, hflush.contexts]
  · cases htimer : u.reconnectTask <;>
      simp [onDisconnect, setContext, startReconnect, notify, redisErr, redisOk, hu, htimer]
  · cases htimer : u.reconnectTask <;>
      simp [onDisconnect, setContext, startReconnect, notify, redisErr, redisOk, hu, htimer]
  · show (u.onDisconnect redisErr).issued = s.issued
    rw [onDisconnect_issued, hflush.issued]

/-- A connection that ends after a shutdown stays down. -/
theorem freeContext_closed {s : AsyncConn} {c : ℕ} {k : Context} (h : Only s c k)
    (hk : k.connected = true) (hstate : s.connectionState = .disconnecting) (status : Int) :
    Ended s (s.freeContext c status) .disconnected s.reconnectTask := by
  have hflush := sameLink_flush s k.replies
  simp only [freeContext, h.2.1, hk, if_true]
  generalize k.replies.foldl completeNull s = u at hflush ⊢
  have hu : u.connectionState = .disconnecting := by rwa [hflush.state]
  refine ⟨h.idle_none ?_, ?_, ?_, ?_⟩
  · rw [onDisconnect_contexts, hflush.contexts]
  · simp [onDisconnect, setContext, notify, hu]
  · simp [onDisconnect, setContext, notify, hu, hflush.timer]
  · show (u.onDisconnect status).issued = s.issued
    rw [onDisconnect_issued, hflush.issued]

/-! ## One step -/

/-- The step keeps the phases and adds only commands on live contexts. -/
structure Keeps (s t : AsyncConn) : Prop where
  phase : Phase t
  issued : ∀ e ∈ t.issued, e ∈ s.issued ∨ OnLive e

theorem Keeps.of_same {s t : AsyncConn} (hphase : Phase s) (h : SameLink s t) : Keeps s t :=
  ⟨hphase.congr h, fun e he => Or.inl (by rwa [h.issued] at he)⟩

theorem Keeps.trans {s t u : AsyncConn} (h : Keeps s t) (h' : Keeps t u) : Keeps s u := by
  refine ⟨h'.phase, fun e he => ?_⟩
  rcases h'.issued e he with he | hlive
  · exact h.issued e he
  · exact Or.inr hlive

theorem Keeps.of_issued_eq {s t : AsyncConn} (hphase : Phase t) (h : t.issued = s.issued) :
    Keeps s t :=
  ⟨hphase, fun e he => Or.inl (by rwa [h] at he)⟩

/-- A new context, when none is alive. -/
theorem Idle.startAsyncConnect {s : AsyncConn} (h : Idle s) :
    Only s.startAsyncConnect s.made .new := by
  refine ⟨rfl, Function.update_self _ _ _, fun d hd => ?_⟩
  rw [show s.startAsyncConnect.contexts d = s.contexts d from Function.update_of_ne hd _ _]
  exact h d

theorem keeps_startConnect {s : AsyncConn} (hphase : Phase s) (h : ℕ) :
    Keeps s (s.startConnect h) := by
  unfold startConnect
  split
  · rename_i hstate
    cases hphase with
    | disconnected _ htimer hidle =>
        refine .of_issued_eq (.connecting (Or.inl rfl) htimer s.made ?_) rfl
        exact Idle.startAsyncConnect (s := { s with
          connectionState := .connecting, connectHandlers := s.connectHandlers ++ [h] }) hidle
    | waiting hst => rcases hst with hst | hst <;> rw [hstate] at hst <;> cases hst
    | connecting hst => rcases hst with hst | hst <;> rw [hstate] at hst <;> cases hst
    | connected hst => rw [hstate] at hst; cases hst
    | disconnecting hst => rw [hstate] at hst; cases hst
  · exact .of_same hphase ⟨rfl, rfl, rfl, rfl, rfl⟩
  all_goals exact .of_same hphase (sameLink_notify s _)

theorem keeps_onReconnectTimer {s : AsyncConn} (hphase : Phase s)
    (htimer : s.reconnectTask = true) : Keeps s s.onReconnectTimer := by
  cases hphase with
  | waiting hstate _ hidle =>
      exact .of_issued_eq (.connecting hstate rfl s.made hidle.startAsyncConnect) rfl
  | disconnected _ hoff | connecting _ hoff | connected _ hoff | disconnecting _ hoff =>
      rw [hoff] at htimer
      cases htimer

/-- A connected phase, seen from its context. -/
theorem Phase.of_live {s : AsyncConn} (hphase : Phase s) {c : ℕ}
    (hlive : (s.contexts c).live = true) :
    s.reconnectTask = false ∧ ∃ replies,
      (s.connectionState = .connected ∧ Only s c ⟨true, false, false, replies⟩) ∨
      (s.connectionState = .disconnecting ∧ Only s c ⟨true, true, false, replies⟩) := by
  have halive : (s.contexts c).freed = false := by
    simp only [Context.live, Bool.and_eq_true, Bool.not_eq_true'] at hlive
    exact hlive.2
  cases hphase with
  | disconnected _ _ hidle | waiting _ _ hidle => exact absurd hidle (not_idle_of_alive halive)
  | connecting _ _ d honly =>
      have hd := honly.eq_of_alive halive
      rw [hd, honly.2.1] at hlive
      cases hlive
  | connected hstate htimer d replies honly =>
      rw [honly.eq_of_alive halive]
      exact ⟨htimer, replies, Or.inl ⟨hstate, honly⟩⟩
  | disconnecting hstate htimer d replies honly =>
      rw [honly.eq_of_alive halive]
      exact ⟨htimer, replies, Or.inr ⟨hstate, honly⟩⟩

/-- `redisAsyncDisconnect` has nothing to do when no context is alive. -/
theorem Idle.redisAsyncDisconnect {s : AsyncConn} (h : Idle s) (busy : Option ℕ) :
    s.redisAsyncDisconnect busy = s := by
  unfold AsyncConn.redisAsyncDisconnect
  split
  · rfl
  · rfl
  · rename_i c _
    rw [if_pos (h c)]

/-- `redisAsyncDisconnect` on the context of `m_ac`. -/
theorem Only.redisAsyncDisconnect {s : AsyncConn} {c : ℕ} {k : Context} (h : Only s c k)
    (halive : k.freed = false) (busy : Option ℕ) :
    s.redisAsyncDisconnect busy =
      if busy = some c ∨ k.replies ≠ [] then s.setContext c { k with disconnecting := true }
      else (s.setContext c { k with disconnecting := true }).freeContext c redisOk := by
  simp [AsyncConn.redisAsyncDisconnect, h.1, h.2.1, halive]

/-- Before a connection is up there is no context, or a new one. -/
theorem Phase.of_down {s : AsyncConn} (hphase : Phase s) (hup : s.connectionState ≠ .connected)
    (hdraining : s.connectionState ≠ .disconnecting) : Idle s ∨ ∃ c, Only s c .new := by
  cases hphase with
  | disconnected _ _ hidle | waiting _ _ hidle => exact Or.inl hidle
  | connecting _ _ c honly => exact Or.inr ⟨c, honly⟩
  | connected hstate => exact absurd hstate hup
  | disconnecting hstate => exact absurd hstate hdraining

/-- A connection that is up has its context. -/
theorem Phase.of_up {s : AsyncConn} (hphase : Phase s)
    (hup : s.connectionState = .connected ∨ s.connectionState = .disconnecting) :
    ∃ c, s.ac = .ctx c ∧ (s.contexts c).live = true := by
  cases hphase with
  | disconnected hstate => rw [hstate] at hup; rcases hup with hup | hup <;> cases hup
  | waiting hstate | connecting hstate =>
      rcases hstate with hstate | hstate <;> rw [hstate] at hup <;>
        rcases hup with hup | hup <;> cases hup
  | connected _ _ c replies honly | disconnecting _ _ c replies honly =>
      exact ⟨c, honly.1, by rw [honly.2.1]; rfl⟩

/-- A shutdown while nothing is connected: a context that is still connecting
ends at once, without a callback. -/
theorem keeps_startDisconnect_down {s : AsyncConn} (hphase : Phase s)
    (hup : s.connectionState ≠ .connected) (hdraining : s.connectionState ≠ .disconnecting)
    {h busy : Option ℕ} (hbusy : ∀ b, busy = some b → (s.contexts b).connected = true) :
    Keeps s (if s.ac ≠ .null then
        notify { AsyncConn.redisAsyncDisconnect { s with reconnectTask := false } busy with
          connectionState := .disconnected, ac := .null } [.shutdown h redisOk]
      else notify { s with reconnectTask := false, connectionState := .disconnected }
        [.shutdown h redisOk]) := by
  let t : AsyncConn := { s with reconnectTask := false }
  have hdown : Idle (t.redisAsyncDisconnect busy) ∧
      (t.redisAsyncDisconnect busy).reconnectTask = false ∧
      (t.redisAsyncDisconnect busy).issued = s.issued := by
    rcases hphase.of_down hup hdraining with hidle | ⟨c, honly⟩
    · rw [Idle.redisAsyncDisconnect (s := t) hidle busy]
      exact ⟨hidle, rfl, rfl⟩
    · have hc : busy ≠ some c := by
        intro hb
        have hconn := hbusy c hb
        rw [honly.2.1] at hconn
        cases hconn
      have ht : Only t c .new := honly
      rw [ht.redisAsyncDisconnect rfl busy, if_neg (by simp [hc, Context.new]),
        freeContext_new (ht.setContext _) rfl rfl]
      exact ⟨(ht.setContext _).idle_none rfl, rfl, rfl⟩
  split
  · exact .of_issued_eq (.disconnected rfl hdown.2.1 hdown.1) hdown.2.2
  · rename_i hnull
    have hidle : Idle s := by
      rcases hphase.of_down hup hdraining with hidle | ⟨c, honly⟩
      · exact hidle
      · rw [honly.1] at hnull
        exact absurd (fun heq => (nomatch heq)) hnull
    exact .of_issued_eq (.disconnected rfl rfl hidle) rfl

theorem keeps_startDisconnect {s : AsyncConn} (hphase : Phase s) (h busy : Option ℕ)
    (hbusy : ∀ b, busy = some b → (s.contexts b).connected = true) :
    Keeps s (s.startDisconnect h busy) := by
  unfold startDisconnect
  split
  · rename_i hstate
    rcases hphase.of_up (Or.inl hstate) with ⟨c, -, hlive⟩
    rcases hphase.of_live hlive with ⟨htimer, replies, ⟨-, honly⟩ | ⟨hdraining, -⟩⟩
    · have ht : Only { s with
          reconnectTask := false, connectionState := .disconnecting,
          shutdownHandlers := s.shutdownHandlers ++ [h] } c ⟨true, false, false, replies⟩ := honly
      rw [ht.redisAsyncDisconnect rfl busy]
      split
      · exact .of_issued_eq (.disconnecting rfl rfl c replies (ht.setContext _)) rfl
      · have hend := freeContext_closed (ht.setContext ⟨true, true, false, replies⟩) rfl rfl redisOk
        exact .of_issued_eq (.disconnected hend.state hend.timer hend.idle) hend.issued
    · rw [hstate] at hdraining
      cases hdraining
  · rename_i hstate
    rcases hphase.of_up (Or.inr hstate) with ⟨c, -, hlive⟩
    have htimer := (hphase.of_live hlive).1
    exact .of_same hphase ⟨rfl, rfl, rfl, htimer.symm, rfl⟩
  all_goals
    rename_i hstate
    exact keeps_startDisconnect_down hphase (by simp [hstate]) (by simp [hstate]) hbusy

/-! ## Commands -/

/-- A command issued while the connection is up is on a live context. -/
theorem keeps_issue {s : AsyncConn} (hphase : Phase s)
    (hup : s.connectionState = .connected ∨ s.connectionState = .disconnecting) (t : Task) :
    Keeps s (s.issue t) := by
  refine ⟨?_, fun e he => ?_⟩
  · cases hphase with
    | disconnected hstate htimer hidle => exact .disconnected hstate htimer hidle
    | waiting hstate htimer hidle => exact .waiting hstate htimer hidle
    | connecting hstate htimer c honly => exact .connecting hstate htimer c honly
    | connected hstate htimer c replies honly => exact .connected hstate htimer c replies honly
    | disconnecting hstate htimer c replies honly =>
        exact .disconnecting hstate htimer c replies honly
  · rcases List.mem_append.mp he with he | he
    · exact Or.inl he
    · rcases hphase.of_up hup with ⟨c, hac, hlive⟩
      refine Or.inr ⟨s.contexts c, ?_, hlive⟩
      rw [List.mem_singleton.mp he]
      simp [context?, hac]

theorem sameLink_runSub (s : AsyncConn) (c : SubCommand) (res : Int) :
    SameLink (s.issue (.sub c)) (s.runSub c res) := by
  cases c <;> simp only [runSub] <;> repeat' split
  all_goals exact ⟨rfl, rfl, rfl, rfl, rfl⟩

theorem keeps_onAuthed {s : AsyncConn} (hphase : Phase s) {status : Int} (reply : Reply)
    (isReconnect : Bool) (busy : Option ℕ)
    (hbusy : ∀ b, busy = some b → (s.contexts b).connected = true)
    (hfailed : status ≠ redisOk → s.reconnectTask = true) :
    Keeps s (s.onAuthed status reply isReconnect busy) := by
  unfold onAuthed
  split
  · rename_i hstatus
    rw [startReconnect, if_pos (hfailed hstatus)]
    exact .of_same hphase (SameLink.refl s)
  · split
    · have hkeeps := keeps_startDisconnect hphase none busy hbusy
      exact hkeeps.trans (.of_same hkeeps.phase (sameLink_notifyAuthed _ _ _))
    · exact .of_same hphase (sameLink_notifyAuthed _ _ _)

theorem keeps_onReply {s : AsyncConn} (hphase : Phase s) {status : Int} (reply : Reply)
    (busy : Option ℕ) (hbusy : ∀ b, busy = some b → (s.contexts b).connected = true)
    (c : AsyncCmd)
    (hfailed : (∃ isReconnect, c = .auth isReconnect) → status ≠ redisOk → s.reconnectTask = true) :
    Keeps s (s.onReply status reply busy c) := by
  cases c with
  | auth isReconnect =>
      exact keeps_onAuthed hphase reply isReconnect busy hbusy (hfailed ⟨isReconnect, rfl⟩)
  | user h => exact .of_same hphase (sameLink_notify s _)

theorem keeps_runCmd {s : AsyncConn} (hphase : Phase s) (c : AsyncCmd) {res : Int}
    (hcond : (∃ isReconnect, c = .auth isReconnect) →
      s.reconnectTask = true ∨ (s.connectionState = .connected ∧ res = redisOk)) :
    Keeps s (s.runCmd c res) := by
  have hnone : ∀ b, (none : Option ℕ) = some b → (s.contexts b).connected = true :=
    fun b hb => (nomatch hb)
  by_cases hup : s.connectionState = .connected
  · rcases hphase.of_up (Or.inl hup) with ⟨d, hac, hlive⟩
    rcases hphase.of_live hlive with ⟨htimer, replies, ⟨-, honly⟩ | ⟨hdraining, -⟩⟩
    swap
    · rw [hup] at hdraining
      cases hdraining
    have haccept : s.accept res = res := by simp [accept, context?, hac, honly.2.1]
    have hissue := keeps_issue hphase (Or.inl hup) (.cmd c)
    simp only [runCmd, AsyncCmd.run, hup, haccept, ne_eq, not_true_eq_false, if_false]
    by_cases hres : res = redisOk
    · simp only [hres, not_true_eq_false, if_false, hac]
      have hset := honly.setContext ⟨true, false, false, replies ++ [c]⟩
      refine ⟨.connected hup htimer d (replies ++ [c]) ?_, hissue.issued⟩
      rw [honly.2.1]
      exact hset
    · simp only [hres, not_false_eq_true, if_true]
      refine hissue.trans (keeps_onReply hissue.phase .null none hnone c fun hauth _ => ?_)
      rcases hcond hauth with htimer' | ⟨-, hok⟩
      · exact htimer'
      · exact absurd hok hres
  · simp only [runCmd, AsyncCmd.run, hup, ne_eq, not_false_eq_true, if_true]
    refine keeps_onReply hphase .null none hnone c fun hauth _ => ?_
    rcases hcond hauth with htimer | ⟨hconn, -⟩
    · exact htimer
    · exact absurd hconn hup

/-! ## Callbacks -/

theorem keeps_handleConnect {s : AsyncConn} (hphase : Phase s) {c : ℕ}
    (halive : (s.contexts c).freed = false) (hnew : (s.contexts c).connected = false)
    (status : Int) (formatted : Bool) : Keeps s (s.handleConnect c status formatted) := by
  -- only a connection that is being set up has such a context
  have hconnecting : (s.connectionState = .connecting ∨ s.connectionState = .reconnecting) ∧
      s.reconnectTask = false ∧ Only s c .new := by
    cases hphase with
    | disconnected _ _ hidle | waiting _ _ hidle => exact absurd hidle (not_idle_of_alive halive)
    | connecting hstate htimer d honly =>
        rw [honly.eq_of_alive halive]
        exact ⟨hstate, htimer, honly⟩
    | connected _ _ d replies honly | disconnecting _ _ d replies honly =>
        rw [honly.eq_of_alive halive, honly.2.1] at hnew
        cases hnew
  rcases hconnecting with ⟨hstate, htimer, honly⟩
  unfold handleConnect
  split
  · rename_i hstatus
    have hrec : s.onConnect status formatted = { s with reconnectTask := true } := by
      simp [onConnect, hstatus, startReconnect, htimer]
    rw [hrec, freeContext_new (s := { s with reconnectTask := true }) honly rfl rfl]
    exact .of_issued_eq (.waiting hstate rfl (honly.idle_none rfl)) rfl
  · rename_i hstatus
    have hset := honly.setContext { s.contexts c with connected := true }
    generalize hu : s.setContext c { s.contexts c with connected := true } = u at hset ⊢
    have hsame : SameLink { u with connectionState := .connected } (u.onConnect status formatted) := by
      simp only [onConnect, hstatus, if_false]
      repeat' split
      all_goals first | exact sameLink_notifyAuthed _ _ _ | exact ⟨rfl, rfl, rfl, rfl, rfl⟩
    have hphase' : Phase { u with connectionState := .connected } := by
      refine .connected rfl (by rw [← hu]; exact htimer) c [] ?_
      rw [honly.2.1] at hset
      exact hset
    refine .of_issued_eq (hphase'.congr hsame) (hsame.issued.trans ?_)
    rw [← hu]
    rfl

/-- A context that is being closed has its last reply. -/
theorem keeps_drained {s : AsyncConn} (hphase : Phase s) {c : ℕ}
    (hdraining : (s.contexts c).disconnecting = true) (halive : (s.contexts c).freed = false)
    (status : Int) : Keeps s (s.freeContext c status) := by
  cases hphase with
  | disconnected _ _ hidle | waiting _ _ hidle => exact absurd hidle (not_idle_of_alive halive)
  | connecting _ _ d honly =>
      rw [honly.eq_of_alive halive, honly.2.1] at hdraining
      cases hdraining
  | connected _ _ d replies honly =>
      rw [honly.eq_of_alive halive, honly.2.1] at hdraining
      cases hdraining
  | disconnecting hstate htimer d replies honly =>
      rw [honly.eq_of_alive halive]
      have hend := freeContext_closed honly rfl hstate status
      exact .of_issued_eq (.disconnected hend.state (hend.timer.trans htimer) hend.idle) hend.issued

theorem keeps_handleReply {s : AsyncConn} (hphase : Phase s) {c : ℕ}
    (hlive : (s.contexts c).live = true) (cmd : AsyncCmd) (rest : List AsyncCmd) (reply : Reply) :
    Keeps s (s.handleReply c cmd rest reply) := by
  have hpop : Keeps s (s.setContext c { s.contexts c with replies := rest }) := by
    rcases hphase.of_live hlive with ⟨htimer, replies, ⟨hstate, honly⟩ | ⟨hstate, honly⟩⟩
    · have hset := honly.setContext ⟨true, false, false, rest⟩
      rw [honly.2.1]
      exact .of_issued_eq (.connected hstate htimer c rest hset) rfl
    · have hset := honly.setContext ⟨true, true, false, rest⟩
      rw [honly.2.1]
      exact .of_issued_eq (.disconnecting hstate htimer c rest hset) rfl
  have hbusy : ∀ b, some c = some b →
      ((s.setContext c { s.contexts c with replies := rest }).contexts b).connected = true := by
    intro b hb
    cases hb
    rw [setContext_self]
    simp only [Context.live, Bool.and_eq_true] at hlive
    exact hlive.1
  have hreply := hpop.trans (keeps_onReply hpop.phase reply (some c) hbusy cmd
    (fun _ hne => absurd rfl hne))
  simp only [handleReply]
  split
  · rename_i hdrained
    exact hreply.trans (keeps_drained hreply.phase hdrained.1 hdrained.2.2 redisOk)
  · exact hreply

/-- The connection breaks. -/
theorem keeps_broken {s : AsyncConn} (hphase : Phase s) {c : ℕ}
    (hlive : (s.contexts c).live = true) : Keeps s (s.freeContext c redisErr) := by
  rcases hphase.of_live hlive with ⟨htimer, replies, ⟨hstate, honly⟩ | ⟨hstate, honly⟩⟩
  · have hend := freeContext_broken honly rfl (by simp [hstate])
    exact .of_issued_eq (.waiting (Or.inr hend.state) hend.timer hend.idle) hend.issued
  · have hend := freeContext_closed honly rfl hstate redisErr
    exact .of_issued_eq (.disconnected hend.state (hend.timer.trans htimer) hend.idle) hend.issued

/-! ## Runs -/

theorem keeps_step {s t : AsyncConn} {e : Event} (hphase : Phase s) (hcond : Orderly s e)
    (hstep : s.step e = some t) : Keeps s t := by
  cases e with
  | request r =>
      cases hstep
      exact .of_same hphase ⟨rfl, rfl, rfl, rfl, rfl⟩
  | run i res =>
      simp only [Orderly, orderly] at hcond
      simp only [step] at hstep
      split at hstep
      · cases hstep
      · rename_i task htask
        cases hstep
        have hsame : SameLink s { s with tasks := s.tasks.eraseIdx i } := ⟨rfl, rfl, rfl, rfl, rfl⟩
        refine (Keeps.of_same hphase hsame).trans ?_
        cases task with
        | start h => exact keeps_startConnect (hphase.congr hsame) h
        | shutdown h =>
            exact keeps_startDisconnect (hphase.congr hsame) (some h) none (fun b hb => (nomatch hb))
        | sub c =>
            have hup : s.connectionState = .connected ∨ s.connectionState = .disconnecting := by
              simpa [htask] using hcond
            have hissue := keeps_issue (hphase.congr hsame) hup (.sub c)
            exact hissue.trans (.of_same hissue.phase (sameLink_runSub _ c res))
        | cmd c =>
            refine keeps_runCmd (hphase.congr hsame) c fun ⟨isReconnect, hauth⟩ => ?_
            simpa [htask, hauth] using hcond
  | timer =>
      simp only [step] at hstep
      split at hstep
      · rename_i htimer
        cases hstep
        exact keeps_onReconnectTimer hphase htimer
      · cases hstep
  | connect c status formatted =>
      simp only [step] at hstep
      split at hstep
      · cases hstep
      · rename_i hnew
        cases hstep
        simp only [not_or, Bool.not_eq_true] at hnew
        exact keeps_handleConnect hphase hnew.1 hnew.2 status formatted
  | reply c reply =>
      simp only [step] at hstep
      split at hstep
      · cases hstep
      · split at hstep
        · rename_i hlive
          cases hstep
          exact keeps_handleReply hphase hlive _ _ reply
        · cases hstep
  | disconnect c =>
      simp only [step] at hstep
      split at hstep
      · rename_i hlive
        cases hstep
        exact keeps_broken hphase hlive
      · cases hstep
  | subscription c reply =>
      simp only [step] at hstep
      split at hstep
      · cases hstep
        exact .of_same hphase (sameLink_handleSubscription s reply)
      · cases hstep

/-- In every run that meets `Orderly`, every command reached hiredis on a
connected context. -/
theorem commands_on_live_context (password : Bytes) (es : List Event) (s : AsyncConn)
    (hrun : machine.run (initial password) es = some s)
    (hok : machine.Meets Orderly (initial password) es) : ∀ e ∈ s.issued, OnLive e := by
  have hinv : Phase s ∧ ∀ e ∈ s.issued, OnLive e := by
    refine machine.run_invariant (fun s => Phase s ∧ ∀ e ∈ s.issued, OnLive e) ?_ ?_ hok hrun
    · intro s e t h hcond hstep
      have hkeeps := keeps_step h.1 hcond hstep
      refine ⟨hkeeps.phase, fun x hx => ?_⟩
      rcases hkeeps.issued x hx with hx | hlive
      · exact h.2 x hx
      · exact hlive
    · exact ⟨.disconnected rfl rfl (fun _ => rfl), fun e he => (nomatch he)⟩
  exact hinv.2

/-- With a password: connect, AUTH, subscribe, a break while AUTH is pending,
and a publish after the reconnect; then a shutdown. -/
def orderlyRun : List Event :=
  [.request (.start 1), .run 0 0, .connect 0 0 true, .run 0 0, .reply 0 (.status [79, 75]),
   .request (.sub (.subscribe [97] 7)), .run 0 0, .disconnect 0, .timer, .connect 1 0 true,
   .run 0 0, .reply 1 (.status [79, 75]), .request (.exec 2 true), .run 0 0, .request (.shutdown 3),
   .run 0 0, .request (.sub (.unsubscribe [97])), .run 0 0, .reply 1 (.integer 1)]

theorem commands_on_live_context_orderlyRun :
    ∃ s, machine.run (initial [1]) orderlyRun = some s ∧ s.issued.length = 5 ∧
      s.connectionState = .disconnected ∧ ∀ e ∈ s.issued, OnLive e := by
  have hsome : (machine.run (initial [1]) orderlyRun).isSome := by decide
  have hok : machine.Meets Orderly (initial [1]) orderlyRun := by decide
  have hview : (machine.run (initial [1]) orderlyRun).map
      (fun s => (s.issued.length, s.connectionState)) = some (5, .disconnected) := by decide
  rcases Option.isSome_iff_exists.mp hsome with ⟨s, hs⟩
  rw [hs, Option.map_some, Option.some.injEq, Prod.mk.injEq] at hview
  exact ⟨s, hs, hview.1, hview.2, commands_on_live_context [1] orderlyRun s hs hok⟩

/-- A subscribe is posted, the connection breaks, and then the task runs. -/
def lateSubscribe : List Event :=
  [.request (.start 1), .run 0 0, .connect 0 0 true, .request (.sub (.subscribe [97] 7)),
   .disconnect 0, .run 0 0]

/-- Without the condition a command can reach hiredis with `m_ac` null. -/
theorem command_on_null_context :
    ¬ ∀ (password : Bytes) (es : List Event) (s : AsyncConn),
      machine.run (initial password) es = some s → ∀ e ∈ s.issued, OnLive e := by
  intro hclaim
  have hsome : (machine.run (initial []) lateSubscribe).isSome := by decide
  have hview : (machine.run (initial []) lateSubscribe).map (fun s => (s.ac, s.issued)) =
      some (.null, [(.sub (.subscribe [97] 7), none)]) := by decide
  rcases Option.isSome_iff_exists.mp hsome with ⟨s, hs⟩
  rw [hs, Option.map_some, Option.some.injEq, Prod.mk.injEq] at hview
  have hmem : (Task.sub (.subscribe [97] 7), (none : Option Context)) ∈ s.issued := by
    rw [hview.2]
    exact List.mem_singleton.mpr rfl
  rcases hclaim [] lateSubscribe s hs _ hmem with ⟨k, hk, -⟩
  cases hk

end AsyncConn

end BcmServer.Redis
