import OmniSpacetimeDb.Cluster.Node
import OmniSpacetimeDb.Foundations.Transition
import Mathlib.Logic.Function.Basic

/-! One node under its clients and its runner (`Arc<Mutex<Node>>`). A thread holds
the mutex of the node for the time of a call; an open transaction holds the lock
of the store from the call that began it to the call that takes it back. -/

namespace OmniSpacetimeDb.Cluster
open Foundations Datastore Durability

abbrev ClientId := Nat

/-- A client that is done with its transaction needs the mutex to hand it back. -/
inductive Client
  | idle
  | reading (tx : Tx)
  | writing (tx : MutTx)
  | releasing (tx : Tx)
  | committing (tx : MutTx)

def Client.holds : Client → Option LockMode
  | .idle => none
  | .reading _ | .releasing _ => some .read
  | .writing _ | .committing _ => some .write

def Client.finishing : Client → Bool
  | .releasing _ | .committing _ => true
  | .idle | .reading _ | .writing _ => false

inductive Request
  | beginTx (client : ClientId) (durabilityLevel : DurabilityLevel)
  | beginMutTx (client : ClientId)
  | updateLeader
  | applyReplicatedTxns

/-- `waiting` is a call whose thread has the mutex, and waits for the lock of the store. -/
structure Server where
  node : Node
  omnipaxos : OmniPaxos
  waiting : Option Request
  clients : ClientId → Client

namespace Server

def new (nodeId : NodeId) : Server where
  node := .new nodeId
  omnipaxos := .ofLog none [] 0
  waiting := none
  clients _ := .idle

def setClient (server : Server) (client : ClientId) (state : Client) : Server :=
  { server with clients := Function.update server.clients client state }

def setNode (server : Server) (node : Node) : Server := { server with node }

def Ready (server : Server) : Request → Prop
  | .beginTx client _ | .beginMutTx client => server.clients client = .idle
  | .updateLeader | .applyReplicatedTxns => True

def locks (server : Server) : Request → List LockMode
  | .beginTx _ _ => [.read]
  | .beginMutTx _ => if (server.node.omniDurability server.omnipaxos).isLeader then [.write] else []
  | .updateLeader => server.node.updateLocks server.omnipaxos
  | .applyReplicatedTxns => server.node.applyLocks server.omnipaxos

def HeldUp (server : Server) (request : Request) (client : ClientId) : Prop :=
  ∃ held mode, (server.clients client).holds = some held ∧ mode ∈ server.locks request ∧
    held.excludes mode = true

def Blocked (server : Server) (request : Request) : Prop := ∃ client, server.HeldUp request client

section
variable [BuildProfile]

def serve (server : Server) : Request → Panics Server
  | .beginTx client durabilityLevel =>
    some (server.setClient client (.reading (server.node.beginTx durabilityLevel)))
  | .beginMutTx client =>
    match server.node.beginMutTx server.omnipaxos with
    | .ok tx => some (server.setClient client (.writing tx))
    | .error _ => some server
  | .updateLeader => (server.node.updateLeader server.omnipaxos).map fun (node, _) => server.setNode node
  | .applyReplicatedTxns => (server.node.applyReplicatedTxns server.omnipaxos).map
      fun (node, _) => server.setNode node

inductive Event
  | observe (omnipaxos : OmniPaxos)
  | call (request : Request)
  | resume
  | use (client : ClientId) (call : Call)
  | finish (client : ClientId)
  | drop (client : ClientId)
  | release (client : ClientId)
  | commit (client : ClientId) (order : Entries String Diff)

/-- One thread moves at a time. Whatever needs the mutex has to find it free,
messages to OmniPaxos included; a call that would wait for the store keeps it. A
transaction that its client drops gives the lock of the store back without it. -/
inductive Moves (server : Server) : Event → Server → Prop
  | observe (omnipaxos : OmniPaxos) (free : server.waiting = none) :
      Moves server (.observe omnipaxos) { server with omnipaxos }
  | served {request : Request} {after : Server} (free : server.waiting = none)
      (ready : server.Ready request) (granted : ¬ server.Blocked request)
      (returned : server.serve request = some after) : Moves server (.call request) after
  | waits {request : Request} (free : server.waiting = none) (ready : server.Ready request)
      (blocked : server.Blocked request) :
      Moves server (.call request) { server with waiting := some request }
  | resumed {request : Request} {after : Server} (waits : server.waiting = some request)
      (granted : ¬ server.Blocked request) (returned : server.serve request = some after) :
      Moves server .resume { after with waiting := none }
  | read {client : ClientId} {tx : Tx} (key : String) (inside : server.clients client = .reading tx) :
      Moves server (.use client (.get key)) server
  | used {client : ClientId} {call : Call} {tx after : MutTx}
      (inside : server.clients client = .writing tx) (returned : tx.call call = some after) :
      Moves server (.use client call) (server.setClient client (.writing after))
  | finishRead {client : ClientId} {tx : Tx} (inside : server.clients client = .reading tx) :
      Moves server (.finish client) (server.setClient client (.releasing tx))
  | finishWrite {client : ClientId} {tx : MutTx} (inside : server.clients client = .writing tx) :
      Moves server (.finish client) (server.setClient client (.committing tx))
  | dropped {client : ClientId} {mode : LockMode} (inside : (server.clients client).holds = some mode)
      (unfinished : (server.clients client).finishing = false) :
      Moves server (.drop client) (server.setClient client .idle)
  | released {client : ClientId} {tx : Tx} (free : server.waiting = none)
      (inside : server.clients client = .releasing tx) :
      Moves server (.release client) (server.setClient client .idle)
  | committed {client : ClientId} {tx : MutTx} {order : Entries String Diff} {result : TxResult}
      {entry : DatabaseLogEntry} {node : Node} (free : server.waiting = none)
      (inside : server.clients client = .committing tx) (visits : order.toFinmap = tx.diff)
      (returned : server.node.commitMutTx server.omnipaxos tx order = .ok (result, entry, node)) :
      Moves server (.commit client order) ((server.setNode node).setClient client .idle)
  | refused {client : ClientId} {tx : MutTx} {order : Entries String Diff} {error : DatastoreError}
      (free : server.waiting = none) (inside : server.clients client = .committing tx)
      (returned : server.node.commitMutTx server.omnipaxos tx order = .error error) :
      Moves server (.commit client order) (server.setClient client .idle)

end

/-- A call that has the mutex waits for a transaction whose client waits for the mutex. -/
def Cycle (server : Server) : Prop :=
  ∃ request client, server.waiting = some request ∧ server.HeldUp request client ∧
    (server.clients client).finishing = true

end Server
end OmniSpacetimeDb.Cluster
