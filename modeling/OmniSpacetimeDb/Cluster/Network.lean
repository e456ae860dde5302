import OmniSpacetimeDb.Cluster.Node
import OmniSpacetimeDb.Foundations.Transition

/-! The runners of a cluster and the channels between them (`utils.rs`, and
`NodeRunner` of `node/mod.rs`). OmniPaxos and its messages are parameters. -/

namespace OmniSpacetimeDb.Cluster
open Foundations Datastore Durability

def msgBufferSize : Nat := 10000

/-- The channel that a sender feeds is named after the node that receives from it. -/
abbrev Sender := NodeId

/-- What a runner calls of OmniPaxos and of its messages. An append fails only while
a reconfiguration is pending, which nothing here proposes: it is taken to return. -/
structure Protocol (σ Msg : Type) where
  new : NodeId → List NodeId → Panics σ
  omnipaxos : σ → OmniPaxos
  tick : σ → Panics σ
  handleIncoming : σ → Msg → Panics σ
  outgoingMessages : σ → Panics (List Msg × σ)
  append : σ → DatabaseLogEntry → σ
  getReceiver : Msg → NodeId
  serializedLength : Msg → Nat

/-- A message in a channel. The sender is history only. -/
structure Envelope (Msg : Type) where
  sender : NodeId
  message : Msg

/-- Where the task of a runner is. It holds the node's mutex for one step at a time,
and none while it waits for room in a channel, or in `select!` for an interval or for
a message. To print that it runs, or is shutting down, it takes the mutex as well. -/
inductive Phase (Msg : Type)
  | starting
  | checking
  | selecting
  | ticking
  | polling
  | updated
  | applied
  | sending (outMessages : List Msg)
  | awaiting (channel : Sender) (message : Msg) (outMessages : List Msg)
  | received (envelope : Envelope Msg)
  | counted (envelope : Envelope Msg)
  | leaving
  | ended
  | panicked

/-- The receiver of a runner that has ended is dropped, and so is one of a runner that panicked. -/
def Phase.closed {Msg : Type} : Phase Msg → Bool
  | .ended | .panicked => true
  | _ => false

/-- A node with its runner. The last three fields are history only: the messages
taken from OmniPaxos, those that went into the channel, and those handled. -/
structure Runner (σ Msg : Type) where
  node : Node
  omniDurability : σ
  connections : HashMap NodeId Sender
  disconnectedConnections : HashMap NodeId Sender
  isRunning : Bool
  receivedMessagesSize : UInt64
  receiver : List (Envelope Msg)
  phase : Phase Msg
  taken : List Msg
  accepted : List (Envelope Msg)
  handled : List (Envelope Msg)

/-- One lock of a node by `delete_connections` or `reconnect_nodes`. -/
inductive Stroke
  | cut (nodeId other : NodeId)
  | restore (nodeId other : NodeId)
deriving DecidableEq

/-- `pending` is what the call of the thread that changes connections still has to do. -/
structure Network (σ Msg : Type) where
  runners : HashMap NodeId (Runner σ Msg)
  pending : List Stroke

variable {σ Msg : Type}

def Runner.new (protocol : Protocol σ Msg) (nodeId : NodeId) (servers : List NodeId)
    (connections : HashMap NodeId Sender) (receiver : List (Envelope Msg)) : Panics (Runner σ Msg) := do
  let omniDurability ← protocol.new nodeId servers
  return {
    node := .new nodeId
    omniDurability
    connections
    disconnectedConnections := ∅
    isRunning := true
    receivedMessagesSize := 0
    receiver
    phase := .starting
    taken := []
    accepted := []
    handled := [] }

/-- A second channel of one node takes the place of the first. -/
def initialiseChannels : List NodeId → HashMap NodeId Sender × HashMap NodeId (List (Envelope Msg))
  | [] => (∅, ∅)
  | pid :: servers =>
    let (senders, receivers) := initialiseChannels servers
    (senders.insert pid pid, receivers.insert pid [])

def spawnRunners (protocol : Protocol σ Msg) (servers : List NodeId)
    (senderChannels : HashMap NodeId Sender) :
    List NodeId → HashMap NodeId (List (Envelope Msg)) → HashMap NodeId (Runner σ Msg) →
      Panics (HashMap NodeId (Runner σ Msg))
  | [], _, nodes => some nodes
  | pid :: rest, receiverChannels, nodes => do
    let receiver ← receiverChannels.lookup pid
    let runner ← Runner.new protocol pid servers (senderChannels.erase pid) receiver
    spawnRunners protocol servers senderChannels rest (receiverChannels.erase pid) (nodes.insert pid runner)

def spawnNodes (protocol : Protocol σ Msg) (servers : List NodeId) : Panics (Network σ Msg) := do
  let (senderChannels, receiverChannels) := initialiseChannels servers
  let runners ← spawnRunners protocol servers senderChannels servers receiverChannels ∅
  return ⟨runners, []⟩

namespace Runner

/-- `received_messages_size += ..` on a `u64`. -/
def addSize [BuildProfile] (size : UInt64) (length : Nat) : Panics UInt64 :=
  if size.toNat + length < 2 ^ 64 then some (size + UInt64.ofNat length)
  else if BuildProfile.overflowChecks then none
  else some (size + UInt64.ofNat length)

def count [BuildProfile] (protocol : Protocol σ Msg) (runner : Runner σ Msg) (envelope : Envelope Msg) :
    Panics (Runner σ Msg) :=
  (addSize runner.receivedMessagesSize (protocol.serializedLength envelope.message)).map
    fun receivedMessagesSize => { runner with receivedMessagesSize, phase := .counted envelope }

def handleIncoming (protocol : Protocol σ Msg) (runner : Runner σ Msg) (envelope : Envelope Msg) :
    Panics (Runner σ Msg) :=
  (protocol.handleIncoming runner.omniDurability envelope.message).map
    fun omniDurability => { runner with
      omniDurability
      phase := .checking
      handled := runner.handled ++ [envelope] }

def updateLeader [BuildProfile] (protocol : Protocol σ Msg) (runner : Runner σ Msg) :
    Panics (Runner σ Msg) :=
  (runner.node.updateLeader (protocol.omnipaxos runner.omniDurability)).map fun (node, _) =>
    { runner with node, phase := .updated }

def applyReplicatedTxns [BuildProfile] (protocol : Protocol σ Msg) (runner : Runner σ Msg) :
    Panics (Runner σ Msg) :=
  (runner.node.applyReplicatedTxns (protocol.omnipaxos runner.omniDurability)).map fun (node, _) =>
    { runner with node, phase := .applied }

def takeOutgoing (protocol : Protocol σ Msg) (runner : Runner σ Msg) : Panics (Runner σ Msg) :=
  (protocol.outgoingMessages runner.omniDurability).map fun (outMessages, omniDurability) =>
    { runner with omniDurability, phase := .sending outMessages, taken := runner.taken ++ outMessages }

def tick (protocol : Protocol σ Msg) (runner : Runner σ Msg) : Panics (Runner σ Msg) :=
  (protocol.tick runner.omniDurability).map fun omniDurability =>
    { runner with omniDurability, phase := .checking }

def stop (runner : Runner σ Msg) : Runner σ Msg := { runner with isRunning := false }

def cut (runner : Runner σ Msg) (other : NodeId) : Runner σ Msg :=
  match runner.connections.lookup other with
  | some connection => { runner with
      connections := runner.connections.erase other
      disconnectedConnections := runner.disconnectedConnections.insert other connection }
  | none => { runner with connections := runner.connections.erase other }

def restore (runner : Runner σ Msg) (other : NodeId) : Runner σ Msg :=
  match runner.disconnectedConnections.lookup other with
  | some connection => { runner with
      connections := runner.connections.insert other connection
      disconnectedConnections := runner.disconnectedConnections.erase other }
  | none => runner

end Runner

/-- What the thread of a client or the task of the runner does, one lock of the node
at a time. The branch of `select!` is taken without the lock: then the runner ticks,
polls, or counts and handles the message that it has received. -/
inductive RunnerAction
  | stop
  | commit (tx : ClientTx)
  | start
  | check
  | tickInterval
  | tick
  | msgHandlingInterval
  | updateLeader
  | applyReplicatedTxns
  | take
  | look
  | finish
  | receive
  | count
  | handle
  | leave

section
variable [BuildProfile] (protocol : Protocol σ Msg)

/-- The call of OmniPaxos or of the node that an action of the task makes. -/
def Runner.call (runner : Runner σ Msg) : RunnerAction → Option (Panics (Runner σ Msg))
  | .tick => match runner.phase with
    | .ticking => some (runner.tick protocol)
    | _ => none
  | .updateLeader => match runner.phase with
    | .polling => some (runner.updateLeader protocol)
    | _ => none
  | .applyReplicatedTxns => match runner.phase with
    | .updated => some (runner.applyReplicatedTxns protocol)
    | _ => none
  | .take => match runner.phase with
    | .applied => some (runner.takeOutgoing protocol)
    | _ => none
  | .count => match runner.phase with
    | .received envelope => some (runner.count protocol envelope)
    | _ => none
  | .handle => match runner.phase with
    | .counted envelope => some (runner.handleIncoming protocol envelope)
    | _ => none
  | _ => none

/-- Which branch `select!` takes depends on time, so each is possible. A panic of
a call poisons the node's mutex; nothing that needs it happens from then on. -/
inductive RunnerStep (runner : Runner σ Msg) : RunnerAction → Runner σ Msg → Prop
  | stop (alive : runner.phase ≠ .panicked) : RunnerStep runner .stop runner.stop
  | commit {tx : ClientTx} {result : TxResult} {entry : DatabaseLogEntry} {node : Node}
      (alive : runner.phase ≠ .panicked)
      (returned : runner.node.execute (protocol.omnipaxos runner.omniDurability) tx =
        some (.ok (result, entry, node))) :
      RunnerStep runner (.commit tx)
        { runner with node, omniDurability := protocol.append runner.omniDurability entry }
  | start (starting : runner.phase = .starting) :
      RunnerStep runner .start { runner with phase := .checking }
  | check (checking : runner.phase = .checking) :
      RunnerStep runner .check { runner with phase := if runner.isRunning then .selecting else .leaving }
  | tickInterval (selecting : runner.phase = .selecting) :
      RunnerStep runner .tickInterval { runner with phase := .ticking }
  | msgHandlingInterval (selecting : runner.phase = .selecting) :
      RunnerStep runner .msgHandlingInterval { runner with phase := .polling }
  | called {action : RunnerAction} {after : Runner σ Msg}
      (called : runner.call protocol action = some (some after)) :
      RunnerStep runner action after
  | panicked {action : RunnerAction} (called : runner.call protocol action = some none) :
      RunnerStep runner action { runner with phase := .panicked }
  | look {message : Msg} {outMessages : List Msg} {channel : Sender}
      (sends : runner.phase = .sending (message :: outMessages))
      (connected : runner.connections.lookup (protocol.getReceiver message) = some channel) :
      RunnerStep runner .look { runner with phase := .awaiting channel message outMessages }
  | skip {message : Msg} {outMessages : List Msg} (sends : runner.phase = .sending (message :: outMessages))
      (unconnected : runner.connections.lookup (protocol.getReceiver message) = none) :
      RunnerStep runner .look { runner with phase := .sending outMessages }
  | finish (sends : runner.phase = .sending []) :
      RunnerStep runner .finish { runner with phase := .checking }
  | receive {envelope : Envelope Msg} {receiver : List (Envelope Msg)}
      (selecting : runner.phase = .selecting) (next : runner.receiver = envelope :: receiver) :
      RunnerStep runner .receive { runner with receiver, phase := .received envelope }
  | leave (leaving : runner.phase = .leaving) : RunnerStep runner .leave { runner with phase := .ended }

end

def Stroke.nodeId : Stroke → NodeId
  | .cut nodeId _ | .restore nodeId _ => nodeId

def Runner.stroke (runner : Runner σ Msg) : Stroke → Runner σ Msg
  | .cut _ other => runner.cut other
  | .restore _ other => runner.restore other

def Runner.sent (runner : Runner σ Msg) (outMessages : List Msg) : Runner σ Msg :=
  { runner with phase := .sending outMessages }

def Runner.accept (runner : Runner σ Msg) (envelope : Envelope Msg) : Runner σ Msg :=
  { runner with receiver := runner.receiver ++ [envelope], accepted := runner.accepted ++ [envelope] }

namespace Network

def set (network : Network σ Msg) (nodeId : NodeId) (runner : Runner σ Msg) : Network σ Msg :=
  { network with runners := network.runners.insert nodeId runner }

/-- A connection that `reconnect_nodes` finds to restore. -/
def Severed (network : Network σ Msg) (nodeId other : NodeId) : Prop :=
  ∃ runner, network.runners.lookup nodeId = some runner ∧ other ∈ runner.disconnectedConnections

inductive Event
  | runner (nodeId : NodeId) (action : RunnerAction)
  | deliver (nodeId : NodeId)
  | deleteConnections (nodeA nodeB : NodeId)
  | reconnectNodes (entries : List (NodeId × NodeId))
  | stroke (stroke : Stroke)

/-- The node whose mutex a step needs. To take a branch of `select!` or to send to a
channel needs none. -/
def Event.locks : Event → Option NodeId
  | .runner _ .finish => none
  | .runner _ .tickInterval | .runner _ .msgHandlingInterval | .runner _ .receive => none
  | .runner nodeId _ => some nodeId
  | .stroke change => some change.nodeId
  | .deliver _ | .deleteConnections _ _ | .reconnectNodes _ => none

/-- The node whose task an event is a step of. Clients, and the thread that changes
connections, act on their own. -/
def Event.mover : Event → Option NodeId
  | .runner _ .stop | .runner _ (.commit _) => none
  | .runner nodeId _ | .deliver nodeId => some nodeId
  | .deleteConnections _ _ | .reconnectNodes _ | .stroke _ => none

/-- The calls that may take the lock of the node's store. -/
def Event.usesStore : Event → Bool
  | .runner _ (.commit _) | .runner _ .updateLeader | .runner _ .applyReplicatedTxns => true
  | _ => false

/-- One task or thread moves at a time, in any order. The thread that changes the
connections does one call after another. Only its own calls read what a node keeps
of cut connections, so each stroke takes the entry from one map to the other. -/
inductive Moves [BuildProfile] (protocol : Protocol σ Msg) (network : Network σ Msg) :
    Event → Network σ Msg → Prop
  | runner {nodeId : NodeId} {action : RunnerAction} {before after : Runner σ Msg}
      (found : network.runners.lookup nodeId = some before)
      (step : RunnerStep protocol before action after) :
      Moves protocol network (.runner nodeId action) (network.set nodeId after)
  | delivered {nodeId : NodeId} {before receiver : Runner σ Msg} {channel : Sender} {message : Msg}
      {outMessages : List Msg} (found : network.runners.lookup nodeId = some before)
      (awaits : before.phase = .awaiting channel message outMessages)
      (receives : (network.set nodeId (before.sent outMessages)).runners.lookup channel = some receiver)
      (live : receiver.phase.closed = false) (room : receiver.receiver.length < msgBufferSize) :
      Moves protocol network (.deliver nodeId)
        ((network.set nodeId (before.sent outMessages)).set channel (receiver.accept ⟨nodeId, message⟩))
  | lost {nodeId : NodeId} {before receiver : Runner σ Msg} {channel : Sender} {message : Msg}
      {outMessages : List Msg} (found : network.runners.lookup nodeId = some before)
      (awaits : before.phase = .awaiting channel message outMessages)
      (receives : network.runners.lookup channel = some receiver)
      (closed : receiver.phase.closed = true) :
      Moves protocol network (.deliver nodeId) (network.set nodeId (before.sent outMessages))
  | deleteConnections (nodeA nodeB : NodeId) (idle : network.pending = []) :
      Moves protocol network (.deleteConnections nodeA nodeB)
        { network with pending := [.cut nodeA nodeB, .cut nodeB nodeA] }
  | reconnectNodes {entries : List (NodeId × NodeId)} (idle : network.pending = [])
      (lists : ∀ nodeId other, (nodeId, other) ∈ entries ↔ network.Severed nodeId other) :
      Moves protocol network (.reconnectNodes entries)
        { network with pending := entries.map fun entry => .restore entry.1 entry.2 }
  | stroke {stroke : Stroke} {rest : List Stroke} {before : Runner σ Msg}
      (next : network.pending = stroke :: rest)
      (found : network.runners.lookup stroke.nodeId = some before) (alive : before.phase ≠ .panicked) :
      Moves protocol network (.stroke stroke)
        { network.set stroke.nodeId (before.stroke stroke) with pending := rest }

end Network
end OmniSpacetimeDb.Cluster
