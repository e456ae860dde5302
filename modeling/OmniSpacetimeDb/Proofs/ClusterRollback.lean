import OmniSpacetimeDb.Proofs.ClusterInvariant

/-! When a leader poll leaves no local writes on a node that is not the leader.
The poll compares two leaders it was told of, and a commit in between needs neither. -/

namespace OmniSpacetimeDb.Proofs.ClusterRollback
open Foundations Datastore Durability Cluster Store ClusterInvariant NodePoll

def RolledBack (state : CommittedState) : Prop :=
  state.committedDiff = ∅ ∧ ∀ key, state.get key .memory = state.get key .replicated

theorem rolledBack_iff (state : CommittedState) : RolledBack state ↔ state.committedDiff = ∅ := by
  refine ⟨And.left, fun drained => ⟨drained, ?_⟩⟩
  intro key
  simp only [CommittedState.get, drained, Finmap.lookup_empty]

/-- A poll that finds another node named finds its own node recorded as the
leader, or nothing left of what it accepted since it last found a leader named. -/
def LeadershipNoticed (cluster : ClusterState) : NodeId × Action → Prop
  | (nodeId, .updateLeader) => ∀ other, (cluster.replicas nodeId).currentLeader =
      some other → other ≠ nodeId →
    (cluster.replicas nodeId).node.currentLeader = some nodeId ∨ (cluster.replicas nodeId).unnoticed = false
  | _ => True

/-- A diff waits on the recorded leader, or since the last time a leader was found named. -/
structure Watched (nodeId : NodeId) (replica : Replica) : Prop where
  valid : Valid nodeId replica
  led : replica.node.datastore.committedDiff ≠ ∅ →
    replica.node.currentLeader = some nodeId ∨ replica.unnoticed = true
  held : replica.unnoticed = true → replica.node.datastore.committedDiff ≠ ∅

theorem watched_new (nodeId : NodeId) : Watched nodeId (.new nodeId) :=
  ⟨valid_new nodeId, fun left => absurd rfl left, fun unnoticed => absurd unnoticed Bool.false_ne_true⟩

variable {nodeId : NodeId}

private theorem not_recorded {replica : Replica} {leader : NodeId} (watched : Watched nodeId replica)
    (keeps : replica.node.currentLeader = some replica.node.nodeId → leader = replica.node.nodeId)
    (other : leader ≠ nodeId) :
    replica.node.currentLeader ≠ some nodeId := by
  intro self
  rw [watched.valid.identity] at keeps
  exact other (keeps self)

/-- Nothing is left where a poll names another leader in the place of one that it did not demote. -/
private theorem drained_of_noticed {replica : Replica} (watched : Watched nodeId replica)
    (recorded : replica.node.currentLeader ≠ some nodeId) (noticed : replica.unnoticed = false) :
    replica.node.datastore.committedDiff = ∅ := by
  by_contra left
  rcases watched.led left with self | unnoticed
  · exact recorded self
  · rw [noticed] at unnoticed
    cases unnoticed

private theorem watched_commit {replica : Replica} {tx : ClientTx} {node : Node}
    {log accepted : List Item} (watched : Watched nodeId replica)
    (stored : node.datastore = committed tx replica.node.datastore)
    (leader : node.currentLeader = replica.node.currentLeader)
    (valid : Valid nodeId ⟨node, log, replica.decidedIdx, replica.currentLeader, accepted,
      replica.unnoticed || decide (writes tx.calls ≠ ∅)⟩) :
    Watched nodeId ⟨node, log, replica.decidedIdx, replica.currentLeader, accepted,
      replica.unnoticed || decide (writes tx.calls ≠ ∅)⟩ := by
  have drained := committed_drained_iff watched.valid.sound tx
  rw [← stored] at drained
  refine ⟨valid, ?_, ?_⟩
  · intro left
    simp only [leader, Bool.or_eq_true, decide_eq_true_eq]
    by_cases wrote : writes tx.calls = ∅
    · rcases watched.led (fun before => left (drained.mpr ⟨wrote, before⟩)) with self | unnoticed
      · exact .inl self
      · exact .inr (.inl unnoticed)
    · exact .inr (.inr wrote)
  · intro unnoticed empty
    obtain ⟨unwritten, before⟩ := drained.mp empty
    simp only [unwritten, ne_eq, not_true_eq_false, decide_false, Bool.or_false] at unnoticed
    exact watched.held unnoticed before

section
variable [BuildProfile] {cluster : ClusterState} {after : Replica} {action : Action}

theorem watched_move (watched : Watched nodeId (cluster.replicas nodeId))
    (noticed : LeadershipNoticed cluster (nodeId, action))
    (moves : ReplicaStep cluster (cluster.replicas nodeId) action after) : Watched nodeId after := by
  have valid := valid_move watched.valid moves
  cases moves with
  | elect | adopt | decide | learn => exact ⟨valid, watched.led, watched.held⟩
  | commit returned =>
    obtain ⟨_, _, rfl⟩ := execute_cases watched.valid.sound returned
    exact watched_commit watched rfl rfl valid
  | applyReplicatedTxns returned =>
    have applied := poll_applied watched.valid.within returned
    refine ⟨valid, ?_, ?_⟩
    · intro left
      have before := mt ((applied_shrinks applied).drained watched.valid.sound) left
      apply (watched.led before).imp applied.currentLeader.trans
      intro unnoticed
      simp only [unnoticed, Bool.true_and, decide_eq_true_eq]
      exact left
    · intro unnoticed
      exact of_decide_eq_true (Bool.and_eq_true_iff.mp unnoticed).2
  | updateLeader returned =>
    cases update_cases returned with
    | unnamed absent =>
      have leader : (cluster.replicas nodeId).currentLeader = none := absent
      refine ⟨valid, ?_, ?_⟩ <;> simp only [leader, Option.isNone_none, Bool.true_and]
      · exact watched.led
      · exact watched.held
    | @noted leader named keeps =>
      have present : (cluster.replicas nodeId).currentLeader = some leader := named
      refine ⟨valid, ?_, ?_⟩ <;> simp only [present, Option.isNone_some, Bool.false_and,
        Bool.false_eq_true, false_implies, or_false]
      intro left
      by_contra different
      have other : leader ≠ nodeId := fun self => different (congrArg some self)
      have recorded := not_recorded watched keeps other
      rcases noticed leader named other with self | unnoticed
      · exact recorded self
      · exact left (drained_of_noticed watched recorded unnoticed)
    | demoted named different recorded =>
      have present : (cluster.replicas nodeId).currentLeader = some _ := named
      refine ⟨valid, fun left => absurd rfl left, ?_⟩
      simp only [present, Option.isNone_some, Bool.false_and, Bool.false_eq_true, false_implies]
    | promoted named different recorded promoted =>
      have present : (cluster.replicas nodeId).currentLeader = some _ := named
      refine ⟨valid, fun _ => .inl (congrArg some watched.valid.identity), ?_⟩
      simp only [present, Option.isNone_some, Bool.false_and, Bool.false_eq_true, false_implies]

theorem watched_run {events : List (NodeId × Action)}
    (run : Run (Guarded LeadershipNoticed Step) .initial events cluster) (nodeId : NodeId) :
    Watched nodeId (cluster.replicas nodeId) :=
  replicas_invariant run watched_new
    (fun _ holds nodeId _ _ noticed moves => watched_move (holds nodeId) noticed moves) nodeId

/-- As long as every leadership is noticed before it ends, exactly the polls that
notice it leave nothing behind. -/
theorem rolled_back_iff_noticed {events : List (NodeId × Action)} {next : ClusterState} {other : NodeId}
    (run : Run (Guarded LeadershipNoticed Step) .initial events cluster)
    (step : Step cluster (nodeId, .updateLeader) next)
    (named : (cluster.replicas nodeId).currentLeader = some other) (different : other ≠ nodeId) :
    RolledBack (next.replicas nodeId).node.datastore ↔
      LeadershipNoticed cluster (nodeId, .updateLeader) := by
  have watched := watched_run run nodeId
  rw [rolledBack_iff]
  cases step with
  | mk moves =>
    rw [cluster.record_self]
    cases moves with
    | updateLeader returned =>
      cases update_cases returned with
      | unnamed absent => cases named.symm.trans absent
      | @noted leader found keeps =>
        obtain rfl := Option.some.inj (named.symm.trans found)
        have recorded := not_recorded watched keeps different
        constructor
        · intro drained _ _ _
          exact .inr (Bool.eq_false_iff.mpr fun unnoticed => watched.held unnoticed drained)
        · intro noticed
          have drained :=
            drained_of_noticed watched recorded ((noticed other named different).resolve_left recorded)
          exact drained
      | demoted _ _ recorded =>
        refine iff_of_true rfl fun _ _ _ => .inl ?_
        rwa [watched.valid.identity] at recorded
      | promoted found =>
        rw [watched.valid.identity] at found
        exact absurd (Option.some.inj (named.symm.trans found)) different

end

theorem rolled_back_iff_noticed_demotion : ∃ cluster next,
    @Run _ _ (Guarded LeadershipNoticed (@Step ⟨true⟩)) .initial
      [(1, .elect (some 1)), (1, .updateLeader), (1, .commit (put "a" "1")), (1, .elect (some 2))] cluster ∧
    @Step ⟨true⟩ cluster (1, .updateLeader) next ∧ (cluster.replicas 1).node.datastore.committedDiff ≠ ∅ ∧
    RolledBack (next.replicas 1).node.datastore := by
  let : BuildProfile := ⟨true⟩
  have run : Run (Guarded LeadershipNoticed Step) .initial
      ([] ++ [(1, .elect (some 1))] ++ [(1, .updateLeader)] ++ [(1, .commit (put "a" "1"))] ++
        [(1, .elect (some 2))]) _ :=
    ((((Run.nil.snoc ⟨trivial, .mk (.elect (some 1))⟩).snoc
      ⟨fun _ _ _ => .inr rfl, .mk (.updateLeader rfl)⟩).snoc
      ⟨trivial, .mk (.commit (execute_leader rfl sound_new _))⟩).snoc
      ⟨trivial, .mk (.elect (some 2))⟩)
  refine ⟨_, _, run, .mk (.updateLeader rfl), by decide, ?_⟩
  exact (rolled_back_iff_noticed run (.mk (.updateLeader rfl)) rfl (by decide)).mpr fun _ _ _ => .inl rfl

/-- Node 2 is named leader between two of its polls that find node 1 named. What it commits
meanwhile stays. -/
theorem unnoticed_leader_keeps_write : ∃ cluster next,
    @Run _ _ (@Step ⟨true⟩) .initial
      [(2, .elect (some 1)), (2, .updateLeader), (2, .elect (some 2)), (2, .commit (put "a" "1")),
        (2, .elect (some 1))] cluster ∧
    @Step ⟨true⟩ cluster (2, .updateLeader) next ∧ (cluster.replicas 2).currentLeader = some 1 ∧
    ¬ RolledBack (next.replicas 2).node.datastore := by
  let : BuildProfile := ⟨true⟩
  have followed := run_move .nil 2 (.elect (some 1)) rfl (.elect (some 1))
  have noticed := run_move followed 2 .updateLeader (ClusterState.record_self ..) (.updateLeader rfl)
  have promoted := run_move noticed 2 (.elect (some 2)) (ClusterState.record_self ..) (.elect (some 2))
  have committed := run_move promoted 2 (.commit (put "a" "1")) (ClusterState.record_self ..)
    (.commit (execute_leader rfl sound_new _))
  have run := run_move committed 2 (.elect (some 1)) (ClusterState.record_self ..) (.elect (some 1))
  refine ⟨_, _, run, .mk (.updateLeader rfl), rfl, ?_⟩
  rw [rolledBack_iff]
  decide

end OmniSpacetimeDb.Proofs.ClusterRollback
