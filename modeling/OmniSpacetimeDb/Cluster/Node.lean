import OmniSpacetimeDb.Durability.OmniPaxosDurability

/-! A node of the cluster (`node/mod.rs`). A call holds the node's mutex, so
OmniPaxos does not move while it runs; what it reads of OmniPaxos is an argument. -/

namespace OmniSpacetimeDb.Cluster
open Foundations Datastore Durability

/-- What `replay_transaction` returned. The node only prints an error. -/
abbrev Replay := Except DatastoreError Unit

/-- The two calls of the runner's loop, with what each reads of OmniPaxos. -/
inductive Poll
  | updateLeader (omnipaxos : OmniPaxos)
  | applyReplicatedTxns (omnipaxos : OmniPaxos)

structure Node where
  nodeId : NodeId
  datastore : CommittedState
  lastAppliedIndex : Option Nat
  currentLeader : Option NodeId
  gotPromotedLeader : Bool

namespace Node

def new (nodeId : NodeId) : Node where
  nodeId
  datastore := .new
  lastAppliedIndex := none
  currentLeader := none
  gotPromotedLeader := false

def omniDurability (node : Node) (omnipaxos : OmniPaxos) : OmniPaxosDurability := ⟨omnipaxos, node.nodeId⟩

def rollbackUnreplicatedTxns (node : Node) : Node :=
  { node with datastore := node.datastore.rollbackToReplicatedDurabilityOffset }

def advanceReplicatedDurabilityOffset (node : Node) : Panics Node := do
  let offset ← node.lastAppliedIndex
  return { node with datastore := node.datastore.advanceReplicatedDurabilityOffset offset }

section
variable [BuildProfile]

/-- The body of the replay loop. A refused replay is followed by the same advance. -/
def applyTransaction (node : Node) (transaction : Nat × TxData) : Panics (Node × Replay) := do
  let (offset, data) := transaction
  let (datastore, replay) ← replayTransaction data node.datastore
  return ({ node with
    datastore := datastore.advanceReplicatedDurabilityOffset offset
    lastAppliedIndex := some offset }, replay)

def applyTransactions (node : Node) : List (Nat × TxData) → Panics (Node × List Replay)
  | [] => some (node, [])
  | transaction :: transactions => do
    let (node, replay) ← node.applyTransaction transaction
    let (node, replays) ← node.applyTransactions transactions
    return (node, replay :: replays)

def nothingToApply (node : Node) (omnipaxos : OmniPaxos) : Bool :=
  let decided := (node.omniDurability omnipaxos).getDurableTxOffsetOptional
  decided.isNone || (decided.isSome && node.lastAppliedIndex.isSome && decided == node.lastAppliedIndex)

/-- Whether the decided entries are taken from memory, and not replayed. -/
def takesFromMemory (node : Node) (omnipaxos : OmniPaxos) : Panics Bool :=
  if (node.omniDurability omnipaxos).isLeader then
    if node.gotPromotedLeader then do
      let current ← node.datastore.getCurOffset
      let decided ← (node.omniDurability omnipaxos).getDurableTxOffsetOptional
      return current == decided
    else some true
  else some false

def applyReplicatedTxns (node : Node) (omnipaxos : OmniPaxos) : Panics (Node × List Replay) :=
  if node.nothingToApply omnipaxos then some (node, []) else do
    let (node, replays) ← if ← node.takesFromMemory omnipaxos then do
        let decided := (node.omniDurability omnipaxos).getDurableTxOffsetOptional
        let node ← advanceReplicatedDurabilityOffset { node with lastAppliedIndex := decided }
        pure (node, [])
      else do
        let transactions ← (node.omniDurability omnipaxos).iterStartingFromOffset
          (node.lastAppliedIndex.getD 0)
        node.applyTransactions transactions
    return ({ node with gotPromotedLeader := false }, replays)

def updateLeader (node : Node) (omnipaxos : OmniPaxos) : Panics (Node × List Replay) :=
  let currentLeader := (node.omniDurability omnipaxos).getCurrentLeader
  match node.currentLeader, currentLeader with
  | some old, some current =>
    if old = current then some (node, []) else do
      let (node, replays) ← if old = node.nodeId then some (node.rollbackUnreplicatedTxns, [])
        else if current = node.nodeId then
          applyReplicatedTxns { node with gotPromotedLeader := true } omnipaxos
        else some (node, [])
      return ({ node with currentLeader }, replays)
  | none, some _ => some ({ node with currentLeader }, [])
  | _, none => some (node, [])

def poll (node : Node) : Poll → Panics (Node × List Replay)
  | .updateLeader omnipaxos => node.updateLeader omnipaxos
  | .applyReplicatedTxns omnipaxos => node.applyReplicatedTxns omnipaxos

def polls (node : Node) : List Poll → Panics (Node × List Replay)
  | [] => some (node, [])
  | poll :: rest => do
    let (node, replays) ← node.poll poll
    let (node, more) ← node.polls rest
    return (node, replays ++ more)

end

/-- The times that `apply_replicated_txns` takes the lock of the store, up to its
end or its panic: `get_cur_offset` reads, every advance and every replay writes. -/
def applyLocks (node : Node) (omnipaxos : OmniPaxos) : List LockMode :=
  if node.nothingToApply omnipaxos then [] else
    let replays :=
      match (node.omniDurability omnipaxos).iterStartingFromOffset (node.lastAppliedIndex.getD 0) with
      | some transactions => transactions.flatMap fun _ => [.write, .write]
      | none => []
    if (node.omniDurability omnipaxos).isLeader then
      if node.gotPromotedLeader then
        .read :: match node.takesFromMemory omnipaxos with
          | some true => [.write]
          | some false => replays
          | none => []
      else [.write]
    else replays

/-- The same for `update_leader`: a rollback writes, and a promotion applies. -/
def updateLocks (node : Node) (omnipaxos : OmniPaxos) : List LockMode :=
  match node.currentLeader, (node.omniDurability omnipaxos).getCurrentLeader with
  | some old, some current =>
    if old = current then []
    else if old = node.nodeId then [.write]
    else if current = node.nodeId then applyLocks { node with gotPromotedLeader := true } omnipaxos
    else []
  | _, _ => []

def beginTx (node : Node) (durabilityLevel : DurabilityLevel) : Tx := node.datastore.beginTx durabilityLevel

def beginMutTx (node : Node) (omnipaxos : OmniPaxos) : Except DatastoreError MutTx :=
  if (node.omniDurability omnipaxos).isLeader then .ok node.datastore.beginMutTx else .error .notLeader

def commitMutTx (node : Node) (omnipaxos : OmniPaxos) (tx : MutTx) (order : Entries String Diff) :
    Except DatastoreError (TxResult × DatabaseLogEntry × Node) :=
  if (node.omniDurability omnipaxos).isLeader then
    let (result, datastore) := Datastore.commitMutTx tx order
    .ok (result, OmniPaxosDurability.appendTx result.txOffset result.txData, { node with datastore })
  else .error .notLeader

/-- A client's transaction. From begin to commit it holds the write guard, so no
other call touches the store in between. -/
def execute (node : Node) (omnipaxos : OmniPaxos) (tx : ClientTx) :
    Panics (Except DatastoreError (TxResult × DatabaseLogEntry × Node)) :=
  match node.beginMutTx omnipaxos with
  | .error error => some (.error error)
  | .ok opened => do
    let opened ← opened.run tx.calls
    return node.commitMutTx omnipaxos opened tx.order

end Node
end OmniSpacetimeDb.Cluster
