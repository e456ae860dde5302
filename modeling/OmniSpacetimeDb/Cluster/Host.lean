import OmniSpacetimeDb.Cluster.Cluster

/-! One node, whatever the others do, up to a panic. A poll holds the node's mutex:
a panic poisons it, and the node does not move again. -/

namespace OmniSpacetimeDb.Cluster
open Foundations Datastore Durability

namespace Node

/-- The unwraps of `apply_replicated_txns`, each where the call gets to it and meets a `None`. -/
inductive UnwrapsNone (node : Node) (omnipaxos : OmniPaxos) : Prop
  | curOffset (busy : node.nothingToApply omnipaxos = false)
      (leader : (node.omniDurability omnipaxos).isLeader = true)
      (promoted : node.gotPromotedLeader = true) (none : node.datastore.getCurOffset = none)
  | lastAppliedIndex (busy : node.nothingToApply omnipaxos = false)
      (mode : node.takesFromMemory omnipaxos = some true)
      (none : (node.omniDurability omnipaxos).getDurableTxOffsetOptional = none)
  | read (busy : node.nothingToApply omnipaxos = false) (mode : node.takesFromMemory omnipaxos = some false)
      (none : (node.omniDurability omnipaxos).iterStartingFromOffset (node.lastAppliedIndex.getD 0) = none)

/-- `update_leader` finds this node named in the place of another one, and applies. -/
def TakesOver (node : Node) (omnipaxos : OmniPaxos) : Prop :=
  omnipaxos.currentLeader = some node.nodeId ∧ ∃ old, node.currentLeader = some old ∧ old ≠ node.nodeId

end Node

namespace Replica

def Unwraps (replica : Replica) : Action → Prop
  | .updateLeader => replica.node.TakesOver replica.omnipaxos ∧
      Node.UnwrapsNone { replica.node with gotPromotedLeader := true } replica.omnipaxos
  | .applyReplicatedTxns => replica.node.UnwrapsNone replica.omnipaxos
  | _ => False

def Panics [BuildProfile] (replica : Replica) : Action → Prop
  | .updateLeader => replica.node.updateLeader replica.omnipaxos = none
  | .applyReplicatedTxns => replica.node.applyReplicatedTxns replica.omnipaxos = none
  | _ => False

end Replica

/-- Whether a node still runs, or which kind of panic has stopped it. -/
inductive Fate
  | running
  | unwrapped
  | panicked

structure Host where
  replica : Replica
  fate : Fate

def Host.new (nodeId : NodeId) : Host := ⟨.new nodeId, .running⟩

/-- The cluster around the node can be in any state at any move. -/
inductive HostStep [BuildProfile] (host : Host) : Action → Host → Prop
  | moves {cluster : ClusterState} {action : Action} {after : Replica} (running : host.fate = .running)
      (moves : ReplicaStep cluster host.replica action after) : HostStep host action ⟨after, .running⟩
  | unwraps {action : Action} (running : host.fate = .running) (unwraps : host.replica.Unwraps action) :
      HostStep host action ⟨host.replica, .unwrapped⟩
  | panics {action : Action} (running : host.fate = .running) (panics : host.replica.Panics action)
      (other : ¬ host.replica.Unwraps action) : HostStep host action ⟨host.replica, .panicked⟩

end OmniSpacetimeDb.Cluster
