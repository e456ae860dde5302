import OmniSpacetimeDb.Cluster.Cluster
import OmniSpacetimeDb.Proofs.LeaderChange

/-! What holds of every replica in every run: its store is sound, each diff that
waits in it comes from a commit the node accepted, and decided logs agree. -/

namespace OmniSpacetimeDb.Proofs.ClusterInvariant
open Foundations Datastore Durability Cluster Store StoreRefinement StoreReplay LogIteration NodePoll

/-- No diff is made, and no offset is given back. -/
structure Shrinks (before after : CommittedState) : Prop where
  sound : Sound before → Sound after
  history : ∀ key, historyOf after key ⊆ historyOf before key
  next : before.nextTxOffset ≤ after.nextTxOffset

theorem Shrinks.refl (state : CommittedState) : Shrinks state state :=
  ⟨fun sound => sound, fun _ _ member => member, Nat.le_refl _⟩

theorem Shrinks.trans {first second third : CommittedState} (before : Shrinks first second)
    (after : Shrinks second third) :
    Shrinks first third :=
  ⟨fun sound => after.sound (before.sound sound),
    fun key _ member => before.history key (after.history key member),
    Nat.le_trans before.next after.next⟩

theorem Shrinks.drained {before after : CommittedState} (shrinks : Shrinks before after)
    (sound : Sound before) (drained : before.committedDiff = ∅) : after.committedDiff = ∅ := by
  refine (shrinks.sound sound).empty fun key => ?_
  exact List.eq_nil_of_subset_nil (sound.drained_iff.mp drained key ▸ shrinks.history key)

theorem shrinks_advance (state : CommittedState) (txOffset : Nat) :
    Shrinks state (state.advanceReplicatedDurabilityOffset txOffset) := by
  refine ⟨fun _ => sound_advance state txOffset, ?_, Nat.le_refl _⟩
  intro key entry member
  rw [advance_history] at member
  exact (List.dropWhile_suffix _).subset (List.mem_of_mem_tail member)

theorem mem_decidedLog {replica : Replica} {item : Item} :
    item ∈ replica.decidedLog ↔ ∃ position, position < replica.decidedIdx ∧
      replica.log[position]? = some item := by
  rw [Replica.decidedLog, List.mem_iff_getElem?]
  refine exists_congr fun position => ?_
  rw [List.getElem?_take]
  split
  next below => exact (and_iff_right below).symm
  next beyond => exact iff_of_false (Option.some_ne_none item).symm fun inside => beyond inside.1

theorem replica_decides {replica : Replica} (within : replica.decidedIdx ≤ replica.log.length) :
    replica.omnipaxos.Decides (replica.decidedLog.map Item.entry) := by
  rw [Replica.decidedLog, List.map_take]
  exact ofLog_decides replica.currentLeader (by rw [List.length_map]; exact within)

/-- Every diff that waits was written by the last accepted commit of its offset. -/
def Pending (replica : Replica) : Prop :=
  ∀ key, ∀ entry ∈ historyOf replica.node.datastore key, entry.1 < replica.node.datastore.nextTxOffset ∧
    ∃ item, replica.maker entry.1 = some item ∧ writeSet item.tx key = some entry.2.value

structure Valid (nodeId : NodeId) (replica : Replica) : Prop where
  identity : replica.node.nodeId = nodeId
  within : replica.decidedIdx ≤ replica.log.length
  sound : Sound replica.node.datastore
  pending : Pending replica

theorem valid_new (nodeId : NodeId) : Valid nodeId (.new nodeId) := by
  refine ⟨rfl, Nat.le_refl 0, sound_new, ?_⟩
  intro key entry member
  cases member

theorem Pending.of_shrinks {before : Replica} (pending : Pending before) {node : Node} {unnoticed : Bool}
    (shrinks : Shrinks before.node.datastore node.datastore) : Pending { before with node, unnoticed } := by
  intro key entry member
  obtain ⟨below, made⟩ := pending key entry (shrinks.history key member)
  exact ⟨Nat.lt_of_lt_of_le below shrinks.next, made⟩

theorem keeps_within {log other : List Item} {decidedIdx : Nat} (within : decidedIdx ≤ log.length)
    (keeps : other.take decidedIdx = log.take decidedIdx) : decidedIdx ≤ other.length := by
  have length := congrArg List.length keeps
  rw [List.length_take, List.length_take] at length
  omega

private theorem newest (accepted : List Item) (item : Item) (txOffset : Nat) :
    (accepted ++ [item]).reverse.find? (fun item => item.entry.txOffset == txOffset) =
      if item.entry.txOffset = txOffset then some item
      else accepted.reverse.find? fun item => item.entry.txOffset == txOffset := by
  rw [List.reverse_append, List.reverse_singleton, List.singleton_append, List.find?_cons]
  by_cases same : item.entry.txOffset = txOffset
  · rw [if_pos same, same, beq_self_eq_true]
  · rw [if_neg same, beq_false_of_ne same]

private theorem valid_commit {nodeId : NodeId} {cluster : ClusterState} {replica : Replica}
    {tx : ClientTx} {result : TxResult} {entry : DatabaseLogEntry} {node : Node} {unnoticed : Bool}
    (valid : Valid nodeId replica)
    (returned : replica.node.execute replica.omnipaxos tx = some (.ok (result, entry, node))) :
    Valid nodeId ⟨node, replica.log ++ [⟨cluster.nextId, tx, entry⟩], replica.decidedIdx,
      replica.currentLeader,
      replica.accepted ++ [⟨cluster.nextId, tx, entry⟩], unnoticed⟩ := by
  obtain ⟨_, rfl, rfl⟩ := execute_cases valid.sound returned
  refine ⟨valid.identity, ?_, sound_committed valid.sound tx, ?_⟩
  · rw [List.length_append]
    exact Nat.le_add_right_of_le valid.within
  · intro key waiting member
    simp only [Replica.maker, newest]
    change waiting ∈ historyOf (committed tx replica.node.datastore) key at member
    rw [committed_history, List.mem_append] at member
    rcases member with old | fresh
    · obtain ⟨below, made⟩ := valid.pending key waiting old
      rw [if_neg (Nat.ne_of_gt below)]
      exact ⟨Nat.lt_succ_of_lt below, made⟩
    · obtain ⟨diff, written, rfl⟩ := List.mem_map.mp fresh
      rw [Option.mem_toList] at written
      rw [if_pos rfl]
      refine ⟨Nat.lt_succ_self _, _, rfl, ?_⟩
      rw [writeSet, written]
      rfl

section
variable [BuildProfile]

theorem shrinks_replay {data : TxData} {before after : CommittedState} {replay : Replay}
    (replayed : replayTransaction data before = some (after, replay)) : Shrinks before after := by
  cases replay_cases replayed with
  | refused => exact .refl _
  | written => exact ⟨fun sound => sound, fun _ _ member => member, Nat.le_succ _⟩

theorem shrinks_entries {entries : List DatabaseLogEntry} {before after : Core} {replays : List Replay}
    (applied : applyEntries entries before = some (after, replays)) : Shrinks before.1 after.1 := by
  induction entries generalizing before replays with
  | nil =>
    cases applied
    exact .refl _
  | cons entry entries ih =>
    obtain ⟨state, replay, others, replayed, tail⟩ := applyEntries_cons applied
    exact (shrinks_replay replayed).trans ((shrinks_advance state entry.txOffset).trans (ih tail))

theorem applied_shrinks {node after : Node} {log : List DatabaseLogEntry}
    (applied : Applied node log after) :
    Shrinks node.datastore after.datastore := by
  cases applied with
  | idle => exact .refl _
  | advanced last => exact shrinks_advance _ _
  | replayed read => exact shrinks_entries read

theorem poll_applied {replica : Replica} {node after : Node} {replays : List Replay}
    (within : replica.decidedIdx ≤ replica.log.length)
    (returned : node.applyReplicatedTxns replica.omnipaxos = some (after, replays)) :
    Applied node (replica.decidedLog.map Item.entry) after := by
  rcases apply_cases (replica_decides within) returned with rfl | ⟨_, applied⟩
  · exact .idle
  · exact applied

theorem valid_move {nodeId : NodeId} {cluster : ClusterState} {replica after : Replica}
    {action : Action} (valid : Valid nodeId replica) (moves : ReplicaStep cluster replica action after) :
    Valid nodeId after := by
  cases moves with
  | elect leader => exact ⟨valid.identity, valid.within, valid.sound, valid.pending⟩
  | adopt keeps => exact ⟨valid.identity, keeps_within valid.within keeps, valid.sound, valid.pending⟩
  | decide _ within _ => exact ⟨valid.identity, within, valid.sound, valid.pending⟩
  | learn _ within _ => exact ⟨valid.identity, within, valid.sound, valid.pending⟩
  | commit returned => exact valid_commit valid returned
  | applyReplicatedTxns returned =>
    have applied := poll_applied valid.within returned
    have shrinks := applied_shrinks applied
    exact ⟨applied.nodeId.trans valid.identity, valid.within, shrinks.sound valid.sound,
      valid.pending.of_shrinks shrinks⟩
  | updateLeader returned =>
    cases update_cases returned with
    | unnamed absent => exact ⟨valid.identity, valid.within, valid.sound, valid.pending⟩
    | noted named keeps => exact ⟨valid.identity, valid.within, valid.sound, valid.pending⟩
    | demoted named different recorded =>
      refine ⟨valid.identity, valid.within, sound_rollback _, ?_⟩
      intro key entry member
      cases member
    | promoted named different recorded promoted =>
      have applied := poll_applied valid.within promoted
      have shrinks := applied_shrinks applied
      exact ⟨applied.nodeId.trans valid.identity, valid.within, shrinks.sound valid.sound,
        valid.pending.of_shrinks shrinks⟩

theorem valid_run {guard : ClusterState → NodeId × Action → Prop} {events : List (NodeId × Action)}
    {cluster : ClusterState} (run : Run (Guarded guard Step) .initial events cluster) (nodeId : NodeId) :
    Valid nodeId (cluster.replicas nodeId) :=
  replicas_invariant run valid_new
    (fun _ holds nodeId _ _ _ moves => valid_move (holds nodeId) moves) nodeId

/-- What is decided is the decided log of some replica, and the others hold prefixes of it. -/
structure Agrees (cluster : ClusterState) : Prop where
  known : ∀ nodeId, (cluster.replicas nodeId).decidedLog <+: cluster.decided
  held : ∃ nodeId, (cluster.replicas nodeId).decidedLog = cluster.decided

/-- No move takes back what is decided, on its replica or in the cluster. -/
structure Grows (before : Replica) (cluster : ClusterState) (after : Replica) (next : ClusterState) :
    Prop where
  mine : before.decidedLog <+: after.decidedLog
  shared : cluster.decided <+: next.decided
  known : after.decidedLog <+: next.decided
  fresh : next.decided = cluster.decided ∨ next.decided = after.decidedLog

theorem decided_grows {nodeId : NodeId} {cluster : ClusterState} {replica after : Replica}
    {action : Action} (within : replica.decidedIdx ≤ replica.log.length)
    (known : replica.decidedLog <+: cluster.decided) (moves : ReplicaStep cluster replica action after) :
    Grows replica cluster after (cluster.record nodeId action after) := by
  have unchanged (same : after.decidedLog = replica.decidedLog)
      (kept : (cluster.record nodeId action after).decided = cluster.decided) :
      Grows replica cluster after (cluster.record nodeId action after) := by
    refine ⟨?_, ?_, ?_, .inl kept⟩
    · rw [same]
    · rw [kept]
    · rwa [same, kept]
  cases moves with
  | elect | updateLeader | applyReplicatedTxns => exact unchanged rfl rfl
  | adopt keeps => exact unchanged keeps rfl
  | commit => exact unchanged (List.take_append_of_le_length within) rfl
  | decide grows _ continues =>
    exact ⟨List.take_prefix_take_left grows, continues, List.prefix_rfl, .inr rfl⟩
  | learn grows _ learnt => exact ⟨List.take_prefix_take_left grows, List.prefix_rfl, learnt, .inl rfl⟩

private theorem agrees_step {before after : ClusterState} {event : NodeId × Action}
    (within : ∀ nodeId, (before.replicas nodeId).decidedIdx ≤ (before.replicas nodeId).log.length)
    (agrees : Agrees before) (step : Step before event after) : Agrees after := by
  cases step with
  | @mk nodeId action moved moves =>
    have grows : Grows _ before moved (before.record nodeId action moved) :=
      decided_grows (within nodeId) (agrees.known nodeId) moves
    constructor
    · intro other
      by_cases same : other = nodeId
      · rw [same, before.record_self]
        exact grows.known
      · rw [before.record_elsewhere action moved same]
        exact (agrees.known other).trans grows.shared
    · rcases grows.fresh with kept | fresh
      · obtain ⟨holder, holds⟩ := agrees.held
        refine ⟨holder, ?_⟩
        by_cases same : holder = nodeId
        · subst same
          -- it held all that is decided, and a move can neither shorten nor pass that
          have least := grows.mine
          rw [holds, ← kept] at least
          rw [before.record_self]
          exact grows.known.eq_of_length_le least.length_le
        · rw [before.record_elsewhere action moved same, holds, kept]
      · refine ⟨nodeId, ?_⟩
        rw [before.record_self, fresh]

theorem agrees_run {guard : ClusterState → NodeId × Action → Prop} {events : List (NodeId × Action)}
    {cluster : ClusterState} (run : Run (Guarded guard Step) .initial events cluster) :
    Agrees cluster := by
  induction run with
  | nil => exact ⟨fun _ => List.prefix_rfl, 0, rfl⟩
  | snoc before last ih => exact agrees_step (fun nodeId => (valid_run before nodeId).within) ih last.taken

end
end OmniSpacetimeDb.Proofs.ClusterInvariant
