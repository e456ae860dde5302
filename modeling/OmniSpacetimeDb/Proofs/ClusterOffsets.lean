import OmniSpacetimeDb.Proofs.ClusterInvariant

/-! When offsets name log positions. A commit takes its offset from the store
and its position from the log, and nothing in between compares the two. -/

namespace OmniSpacetimeDb.Proofs.ClusterOffsets
open Foundations Datastore Durability Cluster OmniPaxosDurability Store StoreRefinement LogIteration
  NodePoll ClusterInvariant

/-- A commit finds its next offset at the end of the log that it extends. -/
def TakesNextPosition (cluster : ClusterState) : NodeId × Action → Prop
  | (nodeId, .commit _) => (cluster.replicas nodeId).node.datastore.nextTxOffset =
      (cluster.replicas nodeId).log.length
  | _ => True

/-- Entries carry their positions, also those that are not decided yet, and the
applied index names a decided one. -/
structure Placed (nodeId : NodeId) (replica : Replica) : Prop where
  valid : Valid nodeId replica
  positioned : Positioned (replica.log.map Item.entry)
  applied : ∀ index, replica.node.lastAppliedIndex = some index → index < replica.decidedIdx

theorem placed_new (nodeId : NodeId) : Placed nodeId (.new nodeId) := by
  refine ⟨valid_new nodeId, positioned_nil, ?_⟩
  intro index applied
  cases applied

theorem Placed.decided {nodeId : NodeId} {replica : Replica} (placed : Placed nodeId replica) :
    Positioned (replica.decidedLog.map Item.entry) := by
  rw [Replica.decidedLog, List.map_take]
  exact placed.positioned.take replica.decidedIdx

section
variable [BuildProfile] {nodeId : NodeId} {cluster : ClusterState}
  {replica after : Replica} {action : Action}

private theorem polled_below {node next : Node} (placed : Placed nodeId replica)
    (applied : Applied node (replica.decidedLog.map Item.entry) next)
    (same : node.lastAppliedIndex = replica.node.lastAppliedIndex) :
    ∀ index, next.lastAppliedIndex = some index → index < replica.decidedIdx := by
  have length : (replica.decidedLog.map Item.entry).length = replica.decidedIdx := by
    rw [List.length_map, Replica.decidedLog, List.length_take, Nat.min_eq_left placed.valid.within]
  have below := placed.applied
  rw [← same, ← length] at below
  rw [← length]
  exact applied.below placed.decided below

theorem placed_move (placed : ∀ nodeId, Placed nodeId (cluster.replicas nodeId))
    (takes : TakesNextPosition cluster (nodeId, action))
    (moves : ReplicaStep cluster (cluster.replicas nodeId) action after) :
    Placed nodeId after := by
  have valid := valid_move (placed nodeId).valid moves
  have positioned := (placed nodeId).positioned
  have below := (placed nodeId).applied
  cases moves with
  | elect => exact ⟨valid, positioned, below⟩
  | @adopt other length keeps =>
    refine ⟨valid, ?_, below⟩
    simp only [List.map_take]
    exact (placed other).positioned.take length
  | decide grows | learn grows =>
    exact ⟨valid, positioned, fun index applied => Nat.lt_of_lt_of_le (below index applied) grows⟩
  | commit returned =>
    obtain ⟨_, rfl, rfl⟩ := execute_cases (placed nodeId).valid.sound returned
    refine ⟨valid, ?_, below⟩
    simp only [List.map_append, List.map_cons, List.map_nil, positioned_snoc_iff, List.length_map]
    exact ⟨positioned, takes⟩
  | applyReplicatedTxns returned =>
    have applied := poll_applied (placed nodeId).valid.within returned
    have polled := polled_below (placed nodeId) applied rfl
    exact ⟨valid, positioned, polled⟩
  | updateLeader returned =>
    cases update_cases returned with
    | unnamed | noted | demoted => exact ⟨valid, positioned, below⟩
    | promoted _ _ _ promoted =>
      have applied := poll_applied (placed nodeId).valid.within promoted
      have polled := polled_below (placed nodeId) applied rfl
      exact ⟨valid, positioned, polled⟩

theorem placed_run {events : List (NodeId × Action)}
    (run : Run (Guarded TakesNextPosition Step) .initial events cluster) (nodeId : NodeId) :
    Placed nodeId (cluster.replicas nodeId) :=
  replicas_invariant run placed_new
    (fun _ placed _ _ _ takes moves => placed_move placed takes moves) nodeId

end

/-- What the offsets are relied on for: the two durable offsets agree, and the
iteration that a node starts at its applied index goes on with the next entry. -/
structure NamesPositions (cluster : ClusterState) : Prop where
  decided : Positioned (cluster.decided.map Item.entry)
  durable : ∀ nodeId, 1 ≤ (cluster.replicas nodeId).decidedIdx →
    ((cluster.replicas nodeId).node.omniDurability
      (cluster.replicas nodeId).omnipaxos).getDurableTxOffsetOptional =
      some ((cluster.replicas nodeId).node.omniDurability
        (cluster.replicas nodeId).omnipaxos).getDurableTxOffset
  resumes : ∀ nodeId index, (cluster.replicas nodeId).node.lastAppliedIndex = some index →
    index < (cluster.replicas nodeId).decidedIdx ∧
      ((cluster.replicas nodeId).node.omniDurability
        (cluster.replicas nodeId).omnipaxos).iterStartingFromOffset index =
        some (((cluster.replicas nodeId).decidedLog.drop (index + 1)).map fun item =>
          item.entry.transaction)

section
variable [BuildProfile] {cluster : ClusterState}

/-- Offsets name positions as long as each commit takes the next position, and a
commit that does not puts an entry where its offset does not say. -/
theorem offsets_name_positions {events : List (NodeId × Action)}
    (run : Run (Guarded TakesNextPosition Step) .initial events cluster) :
    NamesPositions cluster ∧ ∀ nodeId tx next, Step cluster (nodeId, .commit tx) next →
      (Positioned ((next.replicas nodeId).log.map Item.entry) ↔
        TakesNextPosition cluster (nodeId, .commit tx)) := by
  have placed := placed_run run
  refine ⟨⟨?_, ?_, ?_⟩, ?_⟩
  · obtain ⟨nodeId, held⟩ := (agrees_run run).held
    exact held ▸ (placed nodeId).decided
  · intro nodeId some_decided
    have decides := replica_decides (placed nodeId).valid.within
    have length : (cluster.replicas nodeId).decidedIdx = _ := decides.length
    rw [optional_lastOffset decides (placed nodeId).decided, ← length]
    obtain ⟨last, reached⟩ := Nat.exists_eq_add_of_le' some_decided
    have shown : (cluster.replicas nodeId).omnipaxos.decidedIdx = last + 1 := reached
    simp [getDurableTxOffset, lastDecided, Node.omniDurability, shown, reached, lastOffset]
  · intro nodeId index applied
    have below := (placed nodeId).applied index applied
    have decides := replica_decides (placed nodeId).valid.within
    have some_decided : (cluster.replicas nodeId).decidedLog.map Item.entry ≠ [] := by
      intro empty
      have length : (cluster.replicas nodeId).decidedIdx = _ := decides.length
      rw [length, empty] at below
      cases below
    refine ⟨below, ?_⟩
    rw [iterStartingFromOffset_eq _ decides some_decided, ← List.map_drop, List.map_map]
    rfl
  · intro nodeId tx next step
    cases step with
    | mk moves =>
      cases moves with
      | commit returned =>
        obtain ⟨_, rfl, rfl⟩ := execute_cases (placed nodeId).valid.sound returned
        simp only [ClusterState.record_self, List.map_append, List.map_cons, List.map_nil,
          positioned_snoc_iff, List.length_map]
        exact and_iff_right (placed nodeId).positioned

end

theorem offsets_name_positions_two_commits : ∃ cluster,
    @Run _ _ (Guarded TakesNextPosition (@Step ⟨true⟩)) .initial
      [(1, .elect (some 1)), (1, .commit (put "a" "1")), (1, .commit (put "b" "2")),
        (1, .decide 2)] cluster ∧
    cluster.decided.length = 2 ∧ NamesPositions cluster := by
  let : BuildProfile := ⟨true⟩
  have run : Run (Guarded TakesNextPosition Step) .initial
      ([] ++ [(1, .elect (some 1))] ++ [(1, .commit (put "a" "1"))] ++ [(1, .commit (put "b" "2"))] ++
        [(1, .decide 2)]) _ :=
    (((Run.nil.snoc ⟨trivial, .mk (.elect (some 1))⟩).snoc
      ⟨rfl, .mk (.commit (execute_leader rfl sound_new _))⟩).snoc
      ⟨rfl, .mk (.commit (execute_leader rfl (sound_committed sound_new _) _))⟩).snoc
      ⟨trivial, .mk (.decide (Nat.zero_le 2) (by exact Nat.le_refl 2) List.nil_prefix)⟩
  exact ⟨_, run, rfl, (offsets_name_positions run).1⟩

/-- Node 2 takes over with an entry of node 1 in its log that it has not applied, and commits
from offset 0 again. -/
theorem commit_reuses_offset : ∃ cluster,
    @Run _ _ (@Step ⟨true⟩) .initial
      [(1, .elect (some 1)), (1, .commit (put "a" "1")), (1, .decide 1), (2, .adopt 1 1), (2, .learn 1),
      (2, .applyReplicatedTxns), (2, .elect (some 2)), (2, .commit (put "b" "2")), (2, .decide 2)] cluster ∧
    (cluster.decided[1]?.map fun item => item.entry.txOffset) = some 0 ∧
    ((cluster.replicas 2).node.omniDurability (cluster.replicas 2).omnipaxos).getDurableTxOffset = 1 ∧
    ((cluster.replicas 2).node.omniDurability
      (cluster.replicas 2).omnipaxos).getDurableTxOffsetOptional = some 0 := by
  let : BuildProfile := ⟨true⟩
  have elected := run_move .nil 1 (.elect (some 1)) rfl (.elect (some 1))
  have committed := run_move elected 1 (.commit (put "a" "1")) (ClusterState.record_self ..)
    (.commit (execute_leader rfl sound_new _))
  have decided := run_move committed 1 (.decide 1) (ClusterState.record_self ..)
    (.decide (Nat.zero_le 1) (Nat.le_refl 1) List.nil_prefix)
  have adopted := run_move decided 2 (.adopt 1 1) rfl (.adopt rfl)
  have learnt := run_move adopted 2 (.learn 1) (ClusterState.record_self ..)
    (.learn (Nat.zero_le 1) (Nat.le_refl 1) List.prefix_rfl)
  have applied :=
    run_move learnt 2 .applyReplicatedTxns (ClusterState.record_self ..) (.applyReplicatedTxns rfl)
  have promoted := run_move applied 2 (.elect (some 2)) (ClusterState.record_self ..) (.elect (some 2))
  have reused := run_move promoted 2 (.commit (put "b" "2")) (ClusterState.record_self ..)
    (.commit (execute_leader rfl sound_new _))
  have run := run_move reused 2 (.decide 2) (ClusterState.record_self ..)
    (.decide (Nat.le_succ 1) (by exact Nat.le_refl 2) ⟨[_], rfl⟩)
  exact ⟨_, run, rfl, rfl, rfl⟩

end OmniSpacetimeDb.Proofs.ClusterOffsets
