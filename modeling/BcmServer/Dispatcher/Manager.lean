import BcmServer.Dispatcher.Address
import BcmServer.Lts.Pool
import Mathlib.Logic.Function.Basic

/-!
# BcmServer.Dispatcher.Manager — registering the connection of a device

`DispatchManager` keeps, for every address with a live websocket, the channel
that serves it. Connecting (`subscribe`), closing (`unsubscribe`) and kicking
(`kick`) each touch three things: the map of channels (under a mutex), the redis
subscription of the address, and the status listeners. Only the map is
protected; the order of the three differs from operation to operation:

* `subscribe`: map, CONNECTED publish, redis subscribe, online, old channel;
* `unsubscribe`: map (only if the channel is still ours), redis unsubscribe,
  channel, offline;
* `kick`: redis unsubscribe, map, channel, offline.

The redis subscription is the registry of `OnlineRedisManager`, which the
server initialises with at least one partition before it starts (`main` exits
otherwise). The badge counter and the `on:` notification of `subscribe` belong
to the push service and are read by nothing here.
-/

namespace BcmServer.Dispatcher

open BcmServer.Util BcmServer.Lts

/-- `DispatchChannel::getIdentity`: the address of the channel object. -/
abbrev Identity := UInt64

/-- `UINT64_MAX`, the default of `delDispatcher`: do not check the identity. -/
def anyIdentity : Identity := 0xFFFFFFFFFFFFFFFF

/-- The mutable part of a `DispatchChannel`: `m_bAvailable`, and whether the
websocket was told to disconnect. -/
structure Channel where
  available : Bool
  disconnected : Bool
deriving DecidableEq, Repr

/-- What the redis connection hands to `DispatchManager` through the message
queue: the confirmation of a subscription, or a published CONNECTED. -/
inductive Event where
  | subscribed (a : DispatchAddress)
  | connected (a : DispatchAddress) (content : Bytes)
deriving DecidableEq, Repr

/-- The address a message is for. -/
def Event.address : Event → DispatchAddress
  | subscribed a | connected a _ => a

/-- The state of a server that the operations of `DispatchManager` touch. -/
structure Server where
  /-- `m_dispatchers` -/
  dispatchers : DispatchAddress → Option Identity
  /-- channels subscribed through `OnlineRedisManager` -/
  subChans : Bytes → Bool
  /-- the last notification sent to the status listeners, `true` for online -/
  lastStatus : DispatchAddress → Option Bool
  channels : Identity → Channel
  /-- `m_messageQueue`, oldest first -/
  queue : List Event

namespace Server

/-- A server nobody has connected to. -/
def initial : Server where
  dispatchers := fun _ => none
  subChans := fun _ => false
  lastStatus := fun _ => none
  channels := fun _ => ⟨false, false⟩
  queue := []

/-! ## The single operations -/

/-- Write the state of one channel. -/
def setChannel (s : Server) (id : Identity) (c : Channel) : Server :=
  { s with channels := Function.update s.channels id c }

/-- The constructor of `DispatchChannel`. -/
def newChannel (s : Server) (id : Identity) : Server :=
  s.setChannel id ⟨false, false⟩

/-- `DispatchManager::replaceDispatcher`, with the replaced channel. -/
def replaceDispatcher (s : Server) (a : DispatchAddress) (id : Identity) :
    Server × Option Identity :=
  ({ s with dispatchers := Function.update s.dispatchers a (some id) }, s.dispatchers a)

/-- `DispatchManager::delDispatcher`, with the deleted channel. -/
def delDispatcher (s : Server) (a : DispatchAddress) (dispatcherId : Identity) :
    Server × Option Identity :=
  match s.dispatchers a with
  | none => (s, none)
  | some d =>
      if dispatcherId ≠ anyIdentity ∧ dispatcherId ≠ d then (s, none)
      else ({ s with dispatchers := Function.update s.dispatchers a none }, some d)

/-- `OnlineRedisManager::subscribe`; redis confirms it. -/
def redisSubscribe (s : Server) (a : DispatchAddress) : Server :=
  { s with
    subChans := Function.update s.subChans a.getSerialized true
    queue := s.queue ++ [.subscribed a] }

/-- `OnlineRedisManager::unsubscribe`. -/
def redisUnsubscribe (s : Server) (a : DispatchAddress) : Server :=
  { s with subChans := Function.update s.subChans a.getSerialized false }

/-- `DispatchManager::onUserStatusChange`. -/
def onUserStatusChange (s : Server) (a : DispatchAddress) (online : Bool) : Server :=
  { s with lastStatus := Function.update s.lastStatus a (some online) }

/-- `DispatchChannel::onDispatchUnsubscribed`. -/
def onDispatchUnsubscribed (s : Server) (id : Identity) (kicking : Bool) : Server :=
  s.setChannel id ⟨false, (s.channels id).disconnected || kicking⟩

/-- `DispatchChannel::onDispatchSubscribed`, as far as `m_bAvailable` goes. -/
def onDispatchSubscribed (s : Server) (id : Identity) : Server :=
  if (s.channels id).available then s
  else s.setChannel id { s.channels id with available := true }

/-- `DispatchChannel::onDispatchRedisMessage` on a CONNECTED message: a channel
that is not the sender's gives up. -/
def onConnected (s : Server) (id : Identity) (content : Bytes) : Server :=
  if (s.channels id).available = false then s
  else if content ≠ [] ∧ content ≠ decimal id.toNat then s.setChannel id ⟨false, true⟩
  else s

/-- What a channel found for a message of `DispatchManager::dispatchMessages`
does with it. -/
def handleMessage (s : Server) (id : Identity) : Event → Server
  | .subscribed _ => s.onDispatchSubscribed id
  | .connected _ content => s.onConnected id content

end Server

/-! ## The calls and their atomic steps -/

/-- A running call: what it does next, with its local variables. -/
inductive Call where
  | subReplace (a : DispatchAddress) (id : Identity)
  | subPublish (a : DispatchAddress) (id : Identity) (old : Option Identity)
  | subRedis (a : DispatchAddress) (id : Identity) (old : Option Identity)
  | subStatus (a : DispatchAddress) (old : Option Identity)
  | subKickOld (a : DispatchAddress) (old : Option Identity)
  | unsDelete (a : DispatchAddress) (id : Identity)
  | unsRedis (a : DispatchAddress) (d : Identity)
  | unsChannel (a : DispatchAddress) (d : Identity)
  | kickRedis (a : DispatchAddress)
  | kickDelete (a : DispatchAddress)
  | kickChannel (a : DispatchAddress) (d : Identity)
  | statusOffline (a : DispatchAddress)
deriving DecidableEq, Repr

/-- The operations of `DispatchManager` a caller can start. `subscribe` makes a
new channel; `id` is the address in memory it gets. -/
inductive Request where
  | subscribe (a : DispatchAddress) (id : Identity)
  | unsubscribe (a : DispatchAddress) (id : Identity)
  | kick (a : DispatchAddress)
deriving DecidableEq, Repr

namespace Call

/-- The address a call is about. -/
def address : Call → DispatchAddress
  | subReplace a _ | subPublish a _ _ | subRedis a _ _ | subStatus a _ | subKickOld a _
  | unsDelete a _ | unsRedis a _ | unsChannel a _
  | kickRedis a | kickDelete a | kickChannel a _ | statusOffline a => a

/-- The next atomic step of a call on its server. The channel is made together
with its registration: nobody else can reach it before. -/
def next (s : Server) : Call → Server × List Call
  | subReplace a id =>
      let (s', old) := (s.newChannel id).replaceDispatcher a id
      (s', [subPublish a id old])
  | subPublish a id old => (s, [subRedis a id old])
  | subRedis a _ old => (s.redisSubscribe a, [subStatus a old])
  | subStatus a old => (s.onUserStatusChange a true, [subKickOld a old])
  | subKickOld _ old =>
      match old with
      | none => (s, [])
      | some d => (s.onDispatchUnsubscribed d true, [])
  | unsDelete a id =>
      match s.delDispatcher a id with
      | (s', none) => (s', [])
      | (s', some d) => (s', [unsRedis a d])
  | unsRedis a d => (s.redisUnsubscribe a, [unsChannel a d])
  | unsChannel a d => (s.onDispatchUnsubscribed d false, [statusOffline a])
  | kickRedis a => (s.redisUnsubscribe a, [kickDelete a])
  | kickDelete a =>
      match s.delDispatcher a anyIdentity with
      | (s', none) => (s', [])
      | (s', some d) => (s', [kickChannel a d])
  | kickChannel a d => (s.onDispatchUnsubscribed d true, [statusOffline a])
  | statusOffline a => (s.onUserStatusChange a false, [])

end Call

/-- How a request begins. -/
def Request.start : Request → Call
  | subscribe a id => .subReplace a id
  | unsubscribe a id => .unsDelete a id
  | kick a => .kickRedis a

/-- The calls of `DispatchManager`, interleaved. -/
def managerSystem : CallSystem Server Call Unit Request where
  next s k _ := some (k.next s)
  env p r := some (p.shared, [r.start])

/-- No call is running. -/
def managerInit : Pool Server Call := ⟨Server.initial, []⟩

end BcmServer.Dispatcher
