import OmniSpacetimeDb.Cluster.Network
import OmniSpacetimeDb.Cluster.Server

/-! The network with the transactions that clients have open at its nodes. A call
that waits for the store keeps the mutex of the node, and its runner has to wait. -/

namespace OmniSpacetimeDb.Cluster
open Foundations Datastore Durability

/-- `waiting` is the call that has the mutex of a node, and waits for the lock of its store. -/
structure Service (σ Msg : Type) where
  network : Network σ Msg
  waiting : NodeId → Option Request
  clients : NodeId → ClientId → Client

/-- The calls of the runner that may take the lock of the store. -/
def RunnerAction.request : RunnerAction → Option Request
  | .updateLeader => some .updateLeader
  | .applyReplicatedTxns => some .applyReplicatedTxns
  | .stop | .commit _ | .start | .check | .tickInterval | .tick | .msgHandlingInterval | .take | .look
  | .finish | .receive | .count | .handle | .leave => none

def Request.ofClient : Request → Bool
  | .beginTx _ _ | .beginMutTx _ => true
  | .updateLeader | .applyReplicatedTxns => false

namespace Server

/-- What a client does at a node, up to the call that hands a transaction in. -/
def ofClient (server : Server) : Event → Bool
  | .call request => request.ofClient
  | .resume => (server.waiting.map Request.ofClient).getD false
  | .use _ _ | .finish _ | .drop _ | .release _ => true
  | .observe _ | .commit _ _ => false

/-- Whether a client has to get the mutex for it. -/
def Event.locks : Event → Bool
  | .call _ | .release _ | .commit _ _ | .observe _ => true
  | .resume | .use _ _ | .finish _ | .drop _ => false

end Server

namespace Service
variable {σ Msg : Type}

def new (network : Network σ Msg) : Service σ Msg where
  network
  waiting _ := none
  clients _ _ := .idle

/-- One node as its clients find it. -/
def server (protocol : Protocol σ Msg) (service : Service σ Msg) (nodeId : NodeId)
    (runner : Runner σ Msg) : Server where
  node := runner.node
  omnipaxos := protocol.omnipaxos runner.omniDurability
  waiting := service.waiting nodeId
  clients := service.clients nodeId

def setWaiting (service : Service σ Msg) (nodeId : NodeId) (waiting : Option Request) : Service σ Msg :=
  { service with waiting := Function.update service.waiting nodeId waiting }

def setClients (service : Service σ Msg) (nodeId : NodeId) (clients : ClientId → Client) : Service σ Msg :=
  { service with clients := Function.update service.clients nodeId clients }

def setClient (service : Service σ Msg) (nodeId : NodeId) (client : ClientId) (state : Client) :
    Service σ Msg :=
  service.setClients nodeId (Function.update (service.clients nodeId) client state)

inductive Event
  | network (event : Network.Event)
  | wait (nodeId : NodeId) (action : RunnerAction)
  | client (nodeId : NodeId) (event : Server.Event)
  | abandon (nodeId : NodeId) (client : ClientId)
  | commit (nodeId : NodeId) (client : ClientId) (order : Entries String Diff)
  | refuse (nodeId : NodeId) (client : ClientId)

/-- One thread or task moves at a time. What needs the mutex of a node has to find
it free and not poisoned, and a runner that waits in a call does nothing else. A
client that needs a poisoned mutex panics, and its transaction gives the lock of
the store back. None panics by itself while it has a mutex. -/
inductive Moves [BuildProfile] (protocol : Protocol σ Msg) (service : Service σ Msg) :
    Event → Service σ Msg → Prop
  | network {event : Network.Event} {after : Network σ Msg} (storeless : event.usesStore = false)
      (free : ∀ nodeId, event.locks = some nodeId → service.waiting nodeId = none)
      (awake : ∀ nodeId request, event.mover = some nodeId → service.waiting nodeId = some request →
        request.ofClient = true)
      (moves : Network.Moves protocol service.network event after) :
      Moves protocol service (.network event) { service with network := after }
  | polled {nodeId : NodeId} {action : RunnerAction} {request : Request} {runner after : Runner σ Msg}
      (asks : action.request = some request)
      (turn : service.waiting nodeId = none ∨ service.waiting nodeId = some request)
      (found : service.network.runners.lookup nodeId = some runner)
      (granted : ¬ (service.server protocol nodeId runner).Blocked request)
      (step : RunnerStep protocol runner action after) :
      Moves protocol service (.network (.runner nodeId action))
        { service.setWaiting nodeId none with network := service.network.set nodeId after }
  | waits {nodeId : NodeId} {action : RunnerAction} {request : Request} {runner : Runner σ Msg}
      {result : Panics (Runner σ Msg)} (asks : action.request = some request)
      (free : service.waiting nodeId = none)
      (found : service.network.runners.lookup nodeId = some runner)
      (due : runner.call protocol action = some result)
      (blocked : (service.server protocol nodeId runner).Blocked request) :
      Moves protocol service (.wait nodeId action) (service.setWaiting nodeId (some request))
  | client {nodeId : NodeId} {event : Server.Event} {runner : Runner σ Msg} {after : Server}
      (found : service.network.runners.lookup nodeId = some runner)
      (alive : event.locks = true → runner.phase ≠ .panicked)
      (own : (service.server protocol nodeId runner).ofClient event = true)
      (moves : Server.Moves (service.server protocol nodeId runner) event after) :
      Moves protocol service (.client nodeId event)
        ((service.setWaiting nodeId after.waiting).setClients nodeId after.clients)
  | abandoned {nodeId : NodeId} {client : ClientId} {runner : Runner σ Msg}
      (finishing : (service.clients nodeId client).finishing = true)
      (found : service.network.runners.lookup nodeId = some runner) (poisoned : runner.phase = .panicked) :
      Moves protocol service (.abandon nodeId client) (service.setClient nodeId client .idle)
  | committed {nodeId : NodeId} {client : ClientId} {tx : MutTx} {order : Entries String Diff}
      {runner : Runner σ Msg} {result : TxResult} {entry : DatabaseLogEntry} {node : Node}
      (free : service.waiting nodeId = none)
      (found : service.network.runners.lookup nodeId = some runner) (alive : runner.phase ≠ .panicked)
      (inside : service.clients nodeId client = .committing tx) (visits : order.toFinmap = tx.diff)
      (returned : runner.node.commitMutTx (protocol.omnipaxos runner.omniDurability) tx order =
        .ok (result, entry, node)) :
      Moves protocol service (.commit nodeId client order)
        { service.setClient nodeId client .idle with
          network := service.network.set nodeId
            { runner with node, omniDurability := protocol.append runner.omniDurability entry } }
  | refused {nodeId : NodeId} {client : ClientId} {tx : MutTx} {order : Entries String Diff}
      {runner : Runner σ Msg} {error : DatastoreError} (free : service.waiting nodeId = none)
      (found : service.network.runners.lookup nodeId = some runner) (alive : runner.phase ≠ .panicked)
      (inside : service.clients nodeId client = .committing tx)
      (returned : runner.node.commitMutTx
        (protocol.omnipaxos runner.omniDurability) tx order = .error error) :
      Moves protocol service (.refuse nodeId client) (service.setClient nodeId client .idle)

end Service
end OmniSpacetimeDb.Cluster
