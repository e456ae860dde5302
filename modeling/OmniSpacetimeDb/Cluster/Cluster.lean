import OmniSpacetimeDb.Cluster.Node
import OmniSpacetimeDb.Foundations.Transition
import Mathlib.Logic.Function.Basic

/-! Nodes beside their OmniPaxos replicas. Only the contract of OmniPaxos is
used: one decided sequence that grows, and logs that take entries at their end
or take over what another replica holds. -/

namespace OmniSpacetimeDb.Cluster
open Foundations Datastore Durability

/-- An appended entry. No two appends have the same id. -/
structure Item where
  id : Nat
  tx : ClientTx
  entry : DatabaseLogEntry

/-- A node with its OmniPaxos replica. The last two fields are history only: what
the node has accepted from clients, and whether it still holds writes accepted
since the last time it found a leader named. -/
structure Replica where
  node : Node
  log : List Item
  decidedIdx : Nat
  currentLeader : Option NodeId
  accepted : List Item
  unnoticed : Bool

namespace Replica

def new (nodeId : NodeId) : Replica where
  node := .new nodeId
  log := []
  decidedIdx := 0
  currentLeader := none
  accepted := []
  unnoticed := false

def omnipaxos (replica : Replica) : OmniPaxos :=
  .ofLog replica.currentLeader (replica.log.map Item.entry) replica.decidedIdx

def decidedLog (replica : Replica) : List Item := replica.log.take replica.decidedIdx

/-- The commit that a diff with this offset came from: the last one that returned it. -/
def maker (replica : Replica) (txOffset : Nat) : Option Item :=
  replica.accepted.reverse.find? fun item => item.entry.txOffset == txOffset

end Replica

structure ClusterState where
  replicas : NodeId → Replica
  decided : List Item
  nextId : Nat

def ClusterState.initial : ClusterState := ⟨.new, [], 0⟩

inductive Action
  | elect (leader : Option NodeId)
  | adopt (other : NodeId) (length : Nat)
  | decide (decidedIdx : Nat)
  | learn (decidedIdx : Nat)
  | commit (tx : ClientTx)
  | updateLeader
  | applyReplicatedTxns

def ClusterState.record (cluster : ClusterState) (nodeId : NodeId) (action : Action) (after : Replica) :
    ClusterState where
  replicas := Function.update cluster.replicas nodeId after
  decided := match action with
    | .decide _ => after.decidedLog
    | _ => cluster.decided
  nextId := match action with
    | .commit _ => cluster.nextId + 1
    | _ => cluster.nextId

@[simp] theorem ClusterState.record_self (cluster : ClusterState) (nodeId : NodeId) (action : Action)
    (after : Replica) :
    (cluster.record nodeId action after).replicas nodeId = after :=
  Function.update_self _ _ _

theorem ClusterState.record_elsewhere (cluster : ClusterState) {nodeId other : NodeId} (action : Action)
    (after : Replica) (different : other ≠ nodeId) :
    (cluster.record nodeId action after).replicas other = cluster.replicas other :=
  Function.update_of_ne different _ _

section
variable [BuildProfile]

/-- What can happen to one replica. A commit that the node accepts is appended
to its own log at once; a poll that panics has no step. -/
inductive ReplicaStep (cluster : ClusterState) (replica : Replica) : Action → Replica → Prop
  | elect (leader : Option NodeId) :
      ReplicaStep cluster replica (.elect leader) { replica with currentLeader := leader }
  | adopt {other : NodeId} {length : Nat}
      (keeps : ((cluster.replicas other).log.take length).take replica.decidedIdx = replica.decidedLog) :
      ReplicaStep cluster replica (.adopt other length)
        { replica with log := (cluster.replicas other).log.take length }
  | decide {decidedIdx : Nat} (grows : replica.decidedIdx ≤ decidedIdx)
      (within : decidedIdx ≤ replica.log.length)
      (continues : cluster.decided <+: replica.log.take decidedIdx) :
      ReplicaStep cluster replica (.decide decidedIdx) { replica with decidedIdx }
  | learn {decidedIdx : Nat} (grows : replica.decidedIdx ≤ decidedIdx)
      (within : decidedIdx ≤ replica.log.length)
      (known : replica.log.take decidedIdx <+: cluster.decided) :
      ReplicaStep cluster replica (.learn decidedIdx) { replica with decidedIdx }
  | commit {tx : ClientTx} {result : TxResult} {entry : DatabaseLogEntry} {node : Node}
      (returned : replica.node.execute replica.omnipaxos tx = some (.ok (result, entry, node))) :
      ReplicaStep cluster replica (.commit tx) { replica with
        node
        log := replica.log ++ [⟨cluster.nextId, tx, entry⟩]
        accepted := replica.accepted ++ [⟨cluster.nextId, tx, entry⟩]
        unnoticed := replica.unnoticed || decide (writes tx.calls ≠ ∅) }
  | updateLeader {node : Node} {replays : List Replay}
      (returned : replica.node.updateLeader replica.omnipaxos = some (node, replays)) :
      ReplicaStep cluster replica .updateLeader
        { replica with node, unnoticed := replica.currentLeader.isNone && replica.unnoticed }
  | applyReplicatedTxns {node : Node} {replays : List Replay}
      (returned : replica.node.applyReplicatedTxns replica.omnipaxos = some (node, replays)) :
      ReplicaStep cluster replica .applyReplicatedTxns
        { replica with node, unnoticed := replica.unnoticed && decide (node.datastore.committedDiff ≠ ∅) }

/-- One replica moves at a time, in any order. -/
inductive Step (cluster : ClusterState) : NodeId × Action → ClusterState → Prop
  | mk {nodeId : NodeId} {action : Action} {after : Replica}
      (moves : ReplicaStep cluster (cluster.replicas nodeId) action after) :
      Step cluster (nodeId, action) (cluster.record nodeId action after)

/-- A run goes on with a move of a replica that is known. -/
theorem run_move {events : List (NodeId × Action)} {cluster : ClusterState} {before after : Replica}
    (run : Run Step .initial events cluster) (nodeId : NodeId) (action : Action)
    (known : cluster.replicas nodeId = before) (moves : ReplicaStep cluster before action after) :
    Run Step .initial (events ++ [(nodeId, action)]) (cluster.record nodeId action after) := by
  subst known
  exact run.snoc (.mk moves)

/-- What holds of fresh replicas, and survives every move of one replica among
others of which it holds, holds of all replicas in every run. -/
theorem replicas_invariant {guard : ClusterState → NodeId × Action → Prop}
    {valid : NodeId → Replica → Prop} {events : List (NodeId × Action)} {cluster : ClusterState}
    (run : Run (Guarded guard Step) .initial events cluster)
    (fresh : ∀ nodeId, valid nodeId (.new nodeId))
    (moves : ∀ cluster, (∀ nodeId, valid nodeId (cluster.replicas nodeId)) → ∀ nodeId action after,
      guard cluster (nodeId, action) →
        ReplicaStep cluster (cluster.replicas nodeId) action after → valid nodeId after) :
    ∀ nodeId, valid nodeId (cluster.replicas nodeId) := by
  refine run.invariant (fun cluster => ∀ nodeId, valid nodeId (cluster.replicas nodeId)) fresh ?_
  intro before event final holds step other
  obtain ⟨allowed, taken⟩ := step
  cases taken with
  | @mk nodeId action after moved =>
    by_cases same : other = nodeId
    · subst other
      rw [before.record_self]
      exact moves before holds nodeId action after allowed moved
    · rw [before.record_elsewhere action after same]
      exact holds other

end
end OmniSpacetimeDb.Cluster
