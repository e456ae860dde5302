import OmniSpacetimeDb.Proofs.ClusterInvariant

/-! When only decided writes become replicated. An apply poll compares offsets,
never transactions, so a write of the node's own passes for the decided entry
whose offset it shares. -/

namespace OmniSpacetimeDb.Proofs.ClusterVisibility
open Foundations Datastore Durability Cluster Store StoreRefinement StoreReplay LogIteration
  NodePoll ClusterInvariant

/-- Whether the action reaches the code that applies decided entries, and finds some to apply. -/
def Applies (replica : Replica) : Action → Prop
  | .applyReplicatedTxns => replica.node.nothingToApply replica.omnipaxos = false
  | .updateLeader => replica.currentLeader = some replica.node.nodeId ∧
    (∃ old, replica.node.currentLeader = some old ∧ old ≠ replica.node.nodeId) ∧
    replica.node.nothingToApply replica.omnipaxos = false
  | _ => False

/-- Below the decided index, the log has at the offset of each waiting diff the
transaction that made the diff. -/
def Standing (replica : Replica) : Prop :=
  ∀ key, ∀ diff ∈ historyOf replica.node.datastore key, diff.1 < replica.decidedIdx →
    replica.log[diff.1]? = replica.maker diff.1

/-- A commit takes no offset beyond its position, and an action that applies
entries finds the waiting diffs at theirs. -/
def OffsetsStand (cluster : ClusterState) : NodeId × Action → Prop
  | (nodeId, .commit _) => (cluster.replicas nodeId).node.datastore.nextTxOffset ≤
      (cluster.replicas nodeId).log.length
  | (nodeId, action) => Applies (cluster.replicas nodeId) action → Standing (cluster.replicas nodeId)

structure Bounded (nodeId : NodeId) (replica : Replica) : Prop where
  valid : Valid nodeId replica
  offsets : ∀ (position : Nat) (item : Item), replica.log[position]? = some item →
    item.entry.txOffset ≤ position

theorem bounded_new (nodeId : NodeId) : Bounded nodeId (.new nodeId) := by
  refine ⟨valid_new nodeId, ?_⟩
  intro position item found
  cases found

variable {nodeId : NodeId} {replica : Replica} {permitted : String → Option String → Prop}

theorem own_decided (bounded : Bounded nodeId replica) (standing : Standing replica) {key : String}
    {diff : Nat × Diff} (waits : diff ∈ historyOf replica.node.datastore key) {decided : Item}
    (member : decided ∈ replica.decidedLog) (reached : diff.1 ≤ decided.entry.txOffset) :
    ∃ item ∈ replica.decidedLog, replica.maker diff.1 = some item ∧
      writeSet item.tx key = some diff.2.value := by
  obtain ⟨position, below, found⟩ := mem_decidedLog.mp member
  have inside : diff.1 < replica.decidedIdx :=
    Nat.lt_of_le_of_lt (Nat.le_trans reached (bounded.offsets position decided found)) below
  obtain ⟨_, item, made, writes⟩ := bounded.valid.pending key diff waits
  exact ⟨item, mem_decidedLog.mpr
    ⟨diff.1, inside, (standing key diff waits inside).trans made⟩, made, writes⟩

private theorem standing_of_own (valid : Valid nodeId replica)
    (positioned : Positioned (replica.log.map Item.entry))
    (own : ∀ key, ∀ diff ∈ historyOf replica.node.datastore key, ∀ decided ∈ replica.decidedLog,
      diff.1 ≤ decided.entry.txOffset → ∃ item ∈ replica.decidedLog, replica.maker diff.1 = some item) :
    Standing replica := by
  have carries {position : Nat} {item : Item} (found : replica.log[position]? = some item) :
      item.entry.txOffset = position :=
    positioned position item.entry (by rw [List.getElem?_map, found]; rfl)
  intro key diff waits inside
  have present := List.getElem?_eq_getElem (Nat.lt_of_lt_of_le inside valid.within)
  obtain ⟨item, member, made⟩ :=
    own key diff waits _ (mem_decidedLog.mpr ⟨diff.1, inside, present⟩) (carries present).ge
  obtain ⟨position, _, found⟩ := mem_decidedLog.mp member
  have same : item.entry.txOffset = diff.1 := by
    have matching := List.find?_some made
    simpa using matching
  rw [made, ← found, ← carries found, same]

theorem advance_changes {state : CommittedState} {txOffset : Nat}
    (allowed : ∀ key, ∀ entry ∈ historyOf state key, entry.1 ≤ txOffset → permitted key entry.2.value) :
    HashMap.Changed permitted state.replicatedState
      (state.advanceReplicatedDurabilityOffset txOffset).replicatedState := by
  intro key
  rw [advance_replicatedState]
  cases newest : ((historyOf state key).takeWhile fun entry => decide (entry.1 ≤ txOffset)).getLast? with
  | none => exact .inl rfl
  | some entry =>
    have taken := List.mem_of_getLast? newest
    have old := List.mem_takeWhile_imp taken
    exact .inr (allowed key entry ((List.takeWhile_sublist _).subset taken) (of_decide_eq_true old))

private theorem delete_changes {row : RowData}
    (allowed : ∀ key, fromUtf8 row.bytes = some key → permitted key none) :
    (replayDelete row).Ensures (HashMap.Changed permitted) := by
  intro before after result ran
  rw [replayDelete] at ran
  split at ran
  next key made =>
    cases ran
    exact HashMap.changed_erase before (allowed key made)
  next =>
    cases ran
    exact .refl before

section
variable [BuildProfile]

def RowWrites (data : TxData) (key : String) (value : Option String) : Prop :=
  (∃ list ∈ data.inserts, ∃ row ∈ list.inserts, ∃ decoded, deserializeExampleRow row.bytes = .ok decoded ∧
    decoded.key = key ∧ value = some decoded.value) ∨
  ∃ list ∈ data.deletes, ∃ row ∈ list.deletes, fromUtf8 row.bytes = some key ∧ value = none

/-- The write is one of the client's, or one that a replay reads in the entry. -/
def Writes (item : Item) (key : String) (value : Option String) : Prop :=
  writeSet item.tx key = some value ∨ RowWrites item.entry.txData key value

private theorem insert_changes {row : RowData}
    (allowed : ∀ decoded, deserializeExampleRow row.bytes = .ok decoded →
      permitted decoded.key (some decoded.value)) :
    (replayInsert row).Ensures (HashMap.Changed permitted) := by
  intro before after result ran
  rw [replayInsert] at ran
  split at ran
  next decoded made =>
    cases ran
    exact HashMap.changed_insert before (allowed decoded made)
  next => cases ran
  next =>
    cases ran
    exact .refl before

/-- A replay changes a key only to what a row of its payload writes there, also
when a later row stops it. -/
theorem replayRows_changes (data : TxData) :
    (replayRows data).Ensures (HashMap.Changed (RowWrites data)) := by
  have trans : ∀ first second third : HashMap String String, HashMap.Changed (RowWrites data) first second →
      HashMap.Changed (RowWrites data) second third → HashMap.Changed (RowWrites data) first third :=
    fun _ _ _ before after => before.trans after
  refine Update.Ensures.andThen trans ?_ ?_
  · refine .forEach .refl trans fun list inside => ?_
    split
    next =>
      refine .forEach .refl trans fun row member => insert_changes fun decoded made => ?_
      exact .inl ⟨list, inside, row, member, decoded, made, rfl, rfl⟩
    next =>
      intro before after result ran
      cases ran
  · refine .forEach .refl trans fun list inside => ?_
    split
    next =>
      refine .forEach .refl trans fun row member => delete_changes fun key made => ?_
      exact .inr ⟨list, inside, row, member, made, rfl⟩
    next =>
      intro before after result ran
      cases ran

theorem replay_changes {data : TxData} {before after : CommittedState} {replay : Replay}
    (allowed : ∀ key value, RowWrites data key value → permitted key value)
    (replayed : replayTransaction data before = some (after, replay)) :
    HashMap.Changed permitted before.replicatedState after.replicatedState := by
  cases replay_cases replayed with
  | refused => exact .refl _
  | written caughtUp read =>
    intro key
    exact (replayRows_changes data _ _ _ read key).imp id (allowed key _)

theorem entries_change {entries : List DatabaseLogEntry} {before after : Core} {replays : List Replay}
    (rows : ∀ entry ∈ entries, ∀ key value, RowWrites entry.txData key value → permitted key value)
    (diffs : ∀ entry ∈ entries, ∀ key, ∀ diff ∈ historyOf before.1 key, diff.1 ≤ entry.txOffset →
      permitted key diff.2.value)
    (applied : applyEntries entries before = some (after, replays)) :
    HashMap.Changed permitted before.1.replicatedState after.1.replicatedState := by
  induction entries generalizing before replays with
  | nil =>
    cases applied
    exact .refl _
  | cons entry entries ih =>
    obtain ⟨state, replay, others, replayed, tail⟩ := applyEntries_cons applied
    have shrinks := shrinks_replay replayed
    have replaying := replay_changes (rows entry List.mem_cons_self) replayed
    have advancing := advance_changes fun key diff waits old =>
      diffs entry List.mem_cons_self key diff (shrinks.history key waits) old
    refine replaying.trans (advancing.trans (ih ?_ ?_ tail))
    · exact fun other member => rows other (List.mem_cons_of_mem _ member)
    · intro other member key diff waits old
      exact diffs other (List.mem_cons_of_mem _ member) key diff
        ((shrinks.trans (shrinks_advance state entry.txOffset)).history key waits) old

theorem applied_changes {node after : Node} {log : List DatabaseLogEntry}
    (rows : ∀ entry ∈ log, ∀ key value, RowWrites entry.txData key value → permitted key value)
    (diffs : ∀ entry ∈ log, ∀ key, ∀ diff ∈ historyOf node.datastore key, diff.1 ≤ entry.txOffset →
      permitted key diff.2.value)
    (applied : Applied node log after) :
    HashMap.Changed permitted node.datastore.replicatedState after.datastore.replicatedState := by
  cases applied with
  | idle => exact .refl _
  | advanced last => exact advance_changes (diffs _ (List.mem_of_getLast? last))
  | replayed read =>
    have inside {entry : DatabaseLogEntry}
        (member : entry ∈ log.drop (node.lastAppliedIndex.getD 0 + 1)) : entry ∈ log :=
      (List.drop_sublist _ _).subset member
    exact entries_change (fun entry member => rows entry (inside member))
      (fun entry member => diffs entry (inside member)) read

/-- What an action shows at the replicated level comes from decided transactions.
It moves only diffs at or below an offset that a decided entry carries. -/
structure OnlyDecided (action : Action) (before after : Replica) : Prop where
  quiet : ¬ Applies before action →
    after.node.datastore.replicatedState = before.node.datastore.replicatedState
  shown : HashMap.Changed (fun key value => ∃ item ∈ after.decidedLog, Writes item key value)
    before.node.datastore.replicatedState after.node.datastore.replicatedState
  own : Applies before action → ∀ key, ∀ diff ∈ historyOf before.node.datastore key,
    ∀ decided ∈ after.decidedLog,
    diff.1 ≤ decided.entry.txOffset → ∃ item ∈ after.decidedLog, before.maker diff.1 = some item

variable {cluster next : ClusterState} {after : Replica} {action : Action}

theorem bounded_move (bounded : ∀ nodeId, Bounded nodeId (cluster.replicas nodeId))
    (allowed : OffsetsStand cluster (nodeId, action))
    (moves : ReplicaStep cluster (cluster.replicas nodeId) action after) : Bounded nodeId after := by
  have valid := valid_move (bounded nodeId).valid moves
  have offsets := (bounded nodeId).offsets
  cases moves with
  | elect | decide | learn | updateLeader | applyReplicatedTxns => exact ⟨valid, offsets⟩
  | @adopt other length keeps =>
    exact ⟨valid, forall_take (bounded other).offsets length⟩
  | commit returned =>
    obtain ⟨_, rfl, rfl⟩ := execute_cases (bounded nodeId).valid.sound returned
    exact ⟨valid, forall_snoc_iff.mpr ⟨offsets, allowed⟩⟩

theorem bounded_run {events : List (NodeId × Action)}
    (run : Run (Guarded OffsetsStand Step) .initial events cluster) (nodeId : NodeId) :
    Bounded nodeId (cluster.replicas nodeId) :=
  replicas_invariant run bounded_new
    (fun _ bounded _ _ _ allowed moves => bounded_move bounded allowed moves) nodeId

private theorem poll_shows {node next : Node} {replays : List Replay} (bounded : Bounded nodeId replica)
    (returned : node.applyReplicatedTxns replica.omnipaxos = some (next, replays))
    (stored : node.datastore = replica.node.datastore)
    (standing : node.nothingToApply replica.omnipaxos = false → Standing replica) :
    (node.nothingToApply replica.omnipaxos ≠ false →
      next.datastore.replicatedState = replica.node.datastore.replicatedState) ∧
      HashMap.Changed (fun key value => ∃ item ∈ replica.decidedLog, Writes item key value)
        replica.node.datastore.replicatedState next.datastore.replicatedState := by
  rw [← stored]
  rcases apply_cases (replica_decides bounded.valid.within) returned with rfl | ⟨busy, applied⟩
  · exact ⟨fun _ => rfl, .refl _⟩
  · refine ⟨fun idle => absurd busy idle, applied_changes ?_ ?_ applied⟩
    · intro entry member key value writes
      obtain ⟨item, decided, rfl⟩ := List.mem_map.mp member
      exact ⟨item, decided, .inr writes⟩
    · intro entry member key diff waits reached
      obtain ⟨decided, inside, rfl⟩ := List.mem_map.mp member
      rw [stored] at waits
      obtain ⟨item, made, _, writes⟩ := own_decided bounded (standing busy) waits inside reached
      exact ⟨item, made, .inl writes⟩

private theorem only_decided (bounded : Bounded nodeId replica)
    (standing : Applies replica action → Standing replica)
    (moves : ReplicaStep cluster replica action after) : OnlyDecided action replica after := by
  have own (same : after.decidedLog = replica.decidedLog) (applies : Applies replica action) :
      ∀ key, ∀ diff ∈ historyOf replica.node.datastore key, ∀ decided ∈ after.decidedLog,
        diff.1 ≤ decided.entry.txOffset → ∃ item ∈ after.decidedLog, replica.maker diff.1 = some item := by
    rw [same]
    intro key diff waits decided member reached
    obtain ⟨item, inside, made, _⟩ := own_decided bounded (standing applies) waits member reached
    exact ⟨item, inside, made⟩
  cases moves with
  | elect | adopt | decide | learn => exact ⟨fun _ => rfl, .refl _, fun applies => absurd applies id⟩
  | commit returned =>
    obtain ⟨_, rfl, rfl⟩ := execute_cases bounded.valid.sound returned
    exact ⟨fun _ => rfl, .refl _, fun applies => absurd applies id⟩
  | applyReplicatedTxns returned =>
    obtain ⟨quiet, shown⟩ := poll_shows bounded returned rfl standing
    exact ⟨quiet, shown, own rfl⟩
  | updateLeader returned =>
    cases update_cases returned with
    | unnamed | noted | demoted => exact ⟨fun _ => rfl, .refl _, own rfl⟩
    | promoted named different recorded promoted =>
      have replaces {idle : Prop} (busy : idle) : replica.currentLeader = some replica.node.nodeId ∧
          (∃ old, replica.node.currentLeader = some old ∧ old ≠ replica.node.nodeId) ∧ idle :=
        ⟨named, ⟨_, recorded, different⟩, busy⟩
      obtain ⟨quiet, shown⟩ := poll_shows bounded promoted rfl fun busy => standing (replaces busy)
      exact ⟨fun idle => quiet fun busy => idle (replaces busy), shown, own rfl⟩

/-- Only decided writes become replicated as long as offsets stand, and where
every offset is a position no weaker condition would do. -/
theorem replicated_is_decided {events : List (NodeId × Action)}
    (run : Run (Guarded OffsetsStand Step) .initial events cluster)
    (step : Step cluster (nodeId, action) next) :
    (OffsetsStand cluster (nodeId, action) →
      (∀ other, other ≠ nodeId → next.replicas other = cluster.replicas other) ∧
      OnlyDecided action (cluster.replicas nodeId) (next.replicas nodeId)) ∧
    (Positioned ((cluster.replicas nodeId).log.map Item.entry) → Applies (cluster.replicas nodeId) action →
      OnlyDecided action (cluster.replicas nodeId) (next.replicas nodeId) →
        Standing (cluster.replicas nodeId)) := by
  have bounded := bounded_run run nodeId
  cases step with
  | @mk _ _ after moves =>
    rw [cluster.record_self]
    constructor
    · intro allowed
      refine ⟨fun other different => cluster.record_elsewhere action after different,
        only_decided bounded ?_ moves⟩
      intro applies
      cases action with
      | applyReplicatedTxns | updateLeader => exact allowed applies
      | _ => exact absurd applies id
    · intro positioned applies decided
      apply standing_of_own bounded.valid positioned
      cases moves with
      | applyReplicatedTxns | updateLeader => exact decided.own applies
      | _ => exact absurd applies id

end

private theorem committed_once {state : CommittedState} {tx : ClientTx} {key : String}
    {diff : Nat × Diff} (drained : historyOf state key = [])
    (waits : diff ∈ historyOf (committed tx state) key) : diff.1 = state.nextTxOffset := by
  rw [committed_history, drained, List.nil_append] at waits
  obtain ⟨_, _, rfl⟩ := List.mem_map.mp waits
  rfl

theorem replicated_is_decided_first_commit : ∃ cluster next,
    @Run _ _ (Guarded OffsetsStand (@Step ⟨true⟩)) .initial
      [(1, .elect (some 1)), (1, .updateLeader), (1, .commit (put "a" "1")), (1, .decide 1)] cluster ∧
    @Step ⟨true⟩ cluster (1, .applyReplicatedTxns) next ∧
    (next.replicas 1).node.datastore.get "a" .replicated = some (some "1") ∧
    @OnlyDecided ⟨true⟩ .applyReplicatedTxns (cluster.replicas 1) (next.replicas 1) := by
  let : BuildProfile := ⟨true⟩
  have run : Run (Guarded OffsetsStand Step) .initial
      ([] ++ [(1, .elect (some 1))] ++ [(1, .updateLeader)] ++ [(1, .commit (put "a" "1"))] ++
        [(1, .decide 1)]) _ :=
    (((Run.nil.snoc ⟨fun applies => absurd applies id, .mk (.elect (some 1))⟩).snoc
      ⟨fun applies => absurd applies.2.2 Bool.noConfusion, .mk (.updateLeader rfl)⟩).snoc
      ⟨Nat.zero_le 0, .mk (.commit (execute_leader rfl sound_new _))⟩).snoc
      ⟨fun applies => absurd applies id,
        .mk (.decide (Nat.zero_le 1) (by exact Nat.le_refl 1) List.nil_prefix)⟩
  refine ⟨_, _, run, .mk (.applyReplicatedTxns rfl), rfl, ?_⟩
  refine ((replicated_is_decided run (.mk (.applyReplicatedTxns rfl))).1 fun _ => ?_).2
  intro key diff waits _
  have offset : diff.1 = 0 := committed_once rfl waits
  rw [offset]
  rfl

/-- Node 2 follows node 1 and takes over with one entry that it has not applied.
Its own commit takes the offset of that entry, and its promotion shows the
commit while the entry of the commit is not decided. -/
theorem promotion_shows_undecided_write : ∃ cluster next,
    @Run _ _ (@Step ⟨true⟩) .initial
      [(1, .elect (some 1)), (1, .commit (put "a" "1")), (1, .decide 1), (2, .elect (some 1)),
      (2, .updateLeader), (2, .adopt 1 1), (2, .learn 1), (2, .applyReplicatedTxns),
        (2, .elect (some 2)), (2, .commit (put "b" "2"))]
      cluster ∧
    @Step ⟨true⟩ cluster (2, .updateLeader) next ∧
    (cluster.replicas 2).node.datastore.get "b" .replicated = some none ∧
    (next.replicas 2).node.datastore.get "b" .replicated = some (some "2") ∧
    (next.replicas 2).decidedLog.map Item.tx = [put "a" "1"] ∧
    ¬ @OnlyDecided ⟨true⟩ .updateLeader (cluster.replicas 2) (next.replicas 2) := by
  let : BuildProfile := ⟨true⟩
  have elected := run_move .nil 1 (.elect (some 1)) rfl (.elect (some 1))
  have committed := run_move elected 1 (.commit (put "a" "1")) (ClusterState.record_self ..)
    (.commit (execute_leader rfl sound_new _))
  have decided := run_move committed 1 (.decide 1) (ClusterState.record_self ..)
    (.decide (Nat.zero_le 1) (by exact Nat.le_refl 1) List.nil_prefix)
  have followed := run_move decided 2 (.elect (some 1)) rfl (.elect (some 1))
  have noticed := run_move followed 2 .updateLeader (ClusterState.record_self ..) (.updateLeader rfl)
  have adopted := run_move noticed 2 (.adopt 1 1) (ClusterState.record_self ..) (.adopt rfl)
  have learnt := run_move adopted 2 (.learn 1) (ClusterState.record_self ..)
    (.learn (Nat.zero_le 1) (by exact Nat.le_refl 1) List.prefix_rfl)
  have applied :=
    run_move learnt 2 .applyReplicatedTxns (ClusterState.record_self ..) (.applyReplicatedTxns rfl)
  have promoted := run_move applied 2 (.elect (some 2)) (ClusterState.record_self ..) (.elect (some 2))
  have run := run_move promoted 2 (.commit (put "b" "2")) (ClusterState.record_self ..)
    (.commit (execute_leader rfl sound_new _))
  refine ⟨_, _, run, .mk (.updateLeader rfl), rfl, rfl, rfl, ?_⟩
  intro only
  obtain ⟨item, member, made⟩ := only.own ⟨rfl, ⟨1, rfl, by decide⟩, rfl⟩ "b" (0, .insert "2") (by decide) _
    List.mem_cons_self (Nat.le_refl 0)
  cases made
  cases List.mem_singleton.mp member

end OmniSpacetimeDb.Proofs.ClusterVisibility
