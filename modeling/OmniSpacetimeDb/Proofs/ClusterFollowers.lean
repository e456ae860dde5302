import OmniSpacetimeDb.Proofs.ClusterOffsets

/-! The replicas that never lead, in every run of a cluster. The first replay of
each is that of the entry at position 1; the advance after it leaves a gap between
the two offsets of the store, and every later replay is refused. -/

namespace OmniSpacetimeDb.Proofs.ClusterFollowers
open Foundations Datastore Durability Cluster Store StoreRefinement StoreReplay LogIteration NodePoll
  LeaderChange ClusterInvariant ClusterOffsets

/-- A store that has replayed one transaction, and advanced to this offset. -/
def stale (tx : ClientTx) (index : Nat) : CommittedState where
  nextTxOffset := 1
  replicatedTxOffset := some index
  replicatedState := replayed tx ∅
  committedDiff := ∅

theorem advance_stale (tx : ClientTx) (index txOffset : Nat) :
    (stale tx index).advanceReplicatedDurabilityOffset txOffset = stale tx txOffset :=
  advance_drained rfl txOffset

theorem stale_get (tx : ClientTx) (index : Nat) (key : String) (level : DurabilityLevel) :
    (stale tx index).get key level = some ((writeSet tx key).getD none) := by
  have replicated := replayed_lookup tx ∅ key
  rw [Finmap.lookup_empty] at replicated
  cases level <;> exact congrArg some replicated

/-- Nothing is replayed yet, or only the entry at position 1 of this log. -/
inductive Shows (log : List Item) : Core → Prop
  | nothing : Shows log (.new, none)
  | second {item : Item} {index : Nat} (held : log[1]? = some item) (positive : 1 ≤ index) :
      Shows log (stale item.tx index, some index)

/-- What a commit on the leader makes of a transaction that can be replayed. -/
def Genuine (log : List Item) : Prop := ∀ item ∈ log, item.entry.txData = payload item.tx ∧ TxFits item.tx

theorem Genuine.take {log : List Item} (genuine : Genuine log) (count : Nat) : Genuine (log.take count) :=
  fun item member => genuine item (List.mem_of_mem_take member)

theorem Shows.of_prefix {log other : List Item} {core : Core} (shows : Shows log core)
    (before : log <+: other) : Shows other core := by
  cases shows with
  | nothing => exact .nothing
  | second held positive =>
    obtain ⟨rest, rfl⟩ := before
    rw [← List.getElem?_append_left (List.getElem?_eq_some_iff.mp held).1] at held
    exact .second held positive

theorem positive_drop {log : List DatabaseLogEntry} (positioned : Positioned log) {start : Nat}
    (positive : 1 ≤ start) {entry : DatabaseLogEntry} (member : entry ∈ log.drop start) :
    1 ≤ entry.txOffset := by
  obtain ⟨position, found⟩ := List.mem_iff_getElem?.mp member
  rw [List.getElem?_drop] at found
  rw [positioned _ entry found]
  omega

section Replays
variable [BuildProfile]

theorem replay_stale {tx : ClientTx} {index : Nat} (positive : 1 ≤ index) (data : TxData) :
    replayTransaction data (stale tx index) = some (stale tx index, .error .invalidDurabilityOffset) := by
  have behind : (stale tx index).caughtUp = false := decide_eq_false (by simp only [stale]; omega)
  rw [replayTransaction, behind, if_neg Bool.false_ne_true]

theorem refuses {tx : ClientTx} {index : Nat} (positive : 1 ≤ index) {entries : List DatabaseLogEntry}
    (later : ∀ entry ∈ entries, 1 ≤ entry.txOffset) : ∃ last replays, 1 ≤ last ∧
      applyEntries entries (stale tx index, some index) = some ((stale tx last, some last), replays) := by
  induction entries generalizing index with
  | nil => exact ⟨index, [], positive, rfl⟩
  | cons entry entries ih =>
    obtain ⟨last, replays, beyond, applied⟩ := ih (later entry List.mem_cons_self) fun other member =>
      later other (List.mem_cons_of_mem _ member)
    refine ⟨last, .error .invalidDurabilityOffset :: replays, beyond, ?_⟩
    simp only [applyEntries, applyEntry, replay_stale positive, advance_stale, Option.map_some,
      Option.bind_some, applied]

theorem replays_second {tx : ClientTx} (fits : TxFits tx) {entry : DatabaseLogEntry}
    (data : entry.txData = payload tx) (offset : entry.txOffset = 1) :
    applyEntry (.new, none) entry = some ((stale tx 1, some 1), .ok ()) := by
  have replays := replayTransaction_payload fits (show CommittedState.new.caughtUp = true from rfl)
  rw [Update.Completes] at replays
  have advanced : (replayedOn tx .new).advanceReplicatedDurabilityOffset 1 = stale tx 1 :=
    advance_drained rfl 1
  simp only [applyEntry, data, replays, Option.map_some, offset, advanced]

/-- A follower that reads on to the end of the decided log. -/
theorem shows_after {decided : List Item} {before : Core}
    (positioned : Positioned (decided.map Item.entry)) (genuine : Genuine decided)
    (shows : Shows decided before) : ∃ after replays,
      applyEntries ((decided.map Item.entry).drop (before.2.getD 0 + 1)) before =
        some (after, replays) ∧ Shows decided after := by
  cases shows with
  | @second item index held positive =>
    obtain ⟨last, replays, beyond, applied⟩ :=
      @refuses _ item.tx index positive _ fun entry => positive_drop positioned (Nat.succ_pos index)
    exact ⟨_, replays, applied, .second held beyond⟩
  | nothing =>
    match decided with
    | [] | [_] => exact ⟨_, [], rfl, .nothing⟩
    | first :: item :: rest =>
      obtain ⟨data, fits⟩ := genuine item (List.mem_cons_of_mem _ List.mem_cons_self)
      have read := replays_second fits data (positioned 1 item.entry rfl)
      obtain ⟨last, replays, beyond, applied⟩ :=
        @refuses _ item.tx 1 (Nat.le_refl 1) (rest.map Item.entry) fun entry =>
          @positive_drop _ positioned 2 (by omega) entry
      refine ⟨_, .ok () :: replays, ?_, .second rfl beyond⟩
      change applyEntries (item.entry :: rest.map Item.entry) (.new, none) = _
      simp only [applyEntries, read, Option.bind_some, applied, Option.map_some]

theorem reaches_last {log : List DatabaseLogEntry} {before after : Core} {replays : List Replay}
    (positioned : Positioned log) (below : ∀ index, before.2 = some index → index < log.length)
    (two : 2 ≤ log.length)
    (applied : applyEntries (log.drop (before.2.getD 0 + 1)) before = some (after, replays)) :
    after.2 = some (log.length - 1) := by
  have index := applyEntries_index applied
  have last := positioned.last
  rw [List.getLast?_drop] at index
  obtain ⟨previous, length⟩ := Nat.exists_eq_add_of_le' (Nat.le_of_succ_le two)
  rw [length, lastOffset] at last
  split at index
  next passed =>
    rw [index, Option.map_none, Option.none_or]
    cases read : before.2 with
    | none =>
      rw [read] at passed
      simp at passed
      omega
    | some index =>
      have inside := below index read
      rw [read] at passed
      simp at passed
      rw [length]
      congr 1
      omega
  next =>
    rw [index, last, length]
    rfl

end Replays

/-- Every commit is one that can be replayed, made where the log ends, and these nodes are
never elected. -/
def Trailing (trails : NodeId → Prop) (cluster : ClusterState) (event : NodeId × Action) : Prop :=
  TakesNextPosition cluster event ∧ (∀ tx, event.2 = .commit tx → TxFits tx) ∧
    ∀ nodeId, trails nodeId → event ≠ (nodeId, .elect (some nodeId))

structure Trails (nodeId : NodeId) (replica : Replica) : Prop where
  named : replica.currentLeader ≠ some nodeId
  recorded : replica.node.currentLeader ≠ some nodeId
  shows : Shows replica.decidedLog (core replica.node)

theorem Trails.follower {nodeId : NodeId} {replica : Replica} (trails : Trails nodeId replica)
    (placed : Placed nodeId replica) :
    replica.omnipaxos.currentLeader ≠ some replica.node.nodeId := by
  rw [placed.valid.identity]
  exact trails.named

structure Held (trails : NodeId → Prop) (nodeId : NodeId) (replica : Replica) : Prop where
  placed : Placed nodeId replica
  genuine : Genuine replica.log
  follower : trails nodeId → Trails nodeId replica

section Runs
variable [BuildProfile] {trails : NodeId → Prop} {nodeId : NodeId} {cluster : ClusterState}
  {replica after : Replica} {action : Action}

omit [BuildProfile] in
theorem held_new (nodeId : NodeId) : Held trails nodeId (.new nodeId) := by
  refine ⟨placed_new nodeId, fun item member => absurd member List.not_mem_nil, ?_⟩
  intro _
  exact ⟨nofun, nofun, .nothing⟩

theorem genuine_move (genuine : ∀ nodeId, Genuine (cluster.replicas nodeId).log)
    (sound : Sound (cluster.replicas nodeId).node.datastore)
    (fits : ∀ tx, action = .commit tx → TxFits tx)
    (moves : ReplicaStep cluster (cluster.replicas nodeId) action after) :
    Genuine after.log := by
  cases moves with
  | elect | decide | learn | updateLeader | applyReplicatedTxns => exact genuine nodeId
  | @adopt other length keeps => exact (genuine other).take length
  | commit returned =>
    obtain ⟨_, rfl, rfl⟩ := execute_cases sound returned
    intro item member
    rcases List.mem_append.mp member with old | new
    · exact genuine nodeId item old
    · obtain rfl := List.mem_singleton.mp new
      exact ⟨rfl, fits _ rfl⟩

theorem trails_apply (placed : Placed nodeId replica) (genuine : Genuine replica.log)
    (trails : Trails nodeId replica) :
    ∃ core replays promoted, replica.node.applyReplicatedTxns replica.omnipaxos =
        some ({ withCore replica.node core with gotPromotedLeader := promoted }, replays) ∧
        Shows replica.decidedLog core ∧
      (2 ≤ replica.decidedIdx → core.2 = some (replica.decidedIdx - 1)) := by
  have length : replica.decidedIdx = (replica.decidedLog.map Item.entry).length :=
    (replica_decides placed.valid.within).length
  obtain ⟨core, replays, applied, shows⟩ :=
    shows_after placed.decided (genuine.take replica.decidedIdx) trails.shows
  obtain ⟨promoted, polled⟩ :=
    apply_follower (replica_decides placed.valid.within) placed.decided (trails.follower placed)
  refine ⟨core, replays, promoted, ?_, shows, ?_⟩
  · rw [polled]
    exact congrArg (Option.map _) applied
  · rw [length]
    intro two
    refine reaches_last placed.decided ?_ two applied
    rw [← length]
    exact placed.applied

theorem trails_move (placed : Placed nodeId replica) (genuine : Genuine replica.log)
    (trails : Trails nodeId replica) (unelected : action ≠ .elect (some nodeId))
    (moves : ReplicaStep cluster replica action after) : Trails nodeId after := by
  have follower := trails.follower placed
  have unrecorded : replica.node.currentLeader ≠ some replica.node.nodeId := by
    rw [placed.valid.identity]
    exact trails.recorded
  cases moves with
  | elect leader =>
    refine ⟨?_, trails.recorded, trails.shows⟩
    rintro rfl
    exact unelected rfl
  | adopt keeps =>
    refine ⟨trails.named, trails.recorded, trails.shows.of_prefix ?_⟩
    rw [← keeps]
    rfl
  | decide grows | learn grows =>
    exact ⟨trails.named, trails.recorded, trails.shows.of_prefix (List.take_prefix_take_left grows)⟩
  | commit returned => exact absurd (execute_cases placed.valid.sound returned).1 follower
  | updateLeader returned =>
    obtain ⟨leader, other, updated⟩ := update_follower follower unrecorded
    rw [updated] at returned
    cases returned
    rw [placed.valid.identity] at other
    exact ⟨trails.named, other, trails.shows⟩
  | applyReplicatedTxns returned =>
    obtain ⟨core, replays, promoted, polled, shows, _⟩ := trails_apply placed genuine trails
    rw [polled] at returned
    cases returned
    exact ⟨trails.named, trails.recorded, shows⟩

theorem held_run {events : List (NodeId × Action)}
    (run : Run (Guarded (Trailing trails) Step) .initial events cluster) :
    ∀ nodeId, Held trails nodeId (cluster.replicas nodeId) := by
  apply replicas_invariant run held_new
  intro cluster held nodeId action after allowed moves
  have sound := (held nodeId).placed.valid.sound
  refine ⟨placed_move (fun other => (held other).placed) allowed.1 moves, ?_, ?_⟩
  · exact genuine_move (fun other => (held other).genuine) sound allowed.2.1 moves
  · intro follower
    apply trails_move (held nodeId).placed (held nodeId).genuine ((held nodeId).follower follower) _ moves
    rintro rfl
    exact allowed.2.2 nodeId follower rfl

/-- However much is decided, a node that never leads shows nothing at first, and
from then on what the transaction at position 1 wrote, and no other. -/
theorem followers_show_second_transaction {events : List (NodeId × Action)}
    (run : Run (Guarded (Trailing trails) Step) .initial events cluster) (follower : trails nodeId) :
    ((cluster.replicas nodeId).node.lastAppliedIndex = none ∧
      (cluster.replicas nodeId).node.datastore = .new ∨
      ∃ item index, cluster.decided[1]? = some item ∧
        (cluster.replicas nodeId).node.lastAppliedIndex = some index ∧
        1 ≤ index ∧ index < (cluster.replicas nodeId).decidedIdx ∧
        (cluster.replicas nodeId).node.datastore = stale item.tx index ∧
        ∀ key level, (cluster.replicas nodeId).node.datastore.get key level =
          some ((writeSet item.tx key).getD none)) ∧
    (2 ≤ (cluster.replicas nodeId).decidedIdx → ∃ item next, cluster.decided[1]? = some item ∧
      Step cluster (nodeId, .applyReplicatedTxns) next ∧
      (next.replicas nodeId).node.datastore =
        stale item.tx ((cluster.replicas nodeId).decidedIdx - 1)) := by
  obtain ⟨placed, genuine, trails⟩ := held_run run nodeId
  have known := (agrees_run run).known nodeId
  constructor
  · obtain ⟨_, _, shows⟩ := trails follower
    generalize same : core (cluster.replicas nodeId).node = pair at shows
    obtain ⟨store, read⟩ := Prod.mk.inj same
    cases shows.of_prefix known with
    | nothing => exact .inl ⟨read, store⟩
    | second held positive =>
      refine .inr ⟨_, _, held, read, positive, placed.applied _ read, store, ?_⟩
      intro key level
      rw [store]
      exact stale_get _ _ key level
  · intro two
    obtain ⟨after, replays, promoted, polled, shows, reached⟩ :=
      trails_apply placed genuine (trails follower)
    have last := reached two
    cases shows.of_prefix known with
    | nothing => cases last
    | second held positive =>
      obtain rfl := Option.some.inj last
      refine ⟨_, _, held, .mk (.applyReplicatedTxns polled), ?_⟩
      rw [ClusterState.record_self]
      rfl

end Runs

/-- Three transactions are decided, and node 2 applies what it has learnt. -/
theorem followers_show_second_transaction_of_three : ∃ cluster next,
    @Run _ _ (@Step ⟨true⟩) .initial
      [(1, .elect (some 1)), (1, .commit (put "a" "1")), (1, .commit (put "b" "2")),
      (1, .commit (put "c" "3")), (1, .decide 3), (2, .adopt 1 3), (2, .learn 3)] cluster ∧
    @Step ⟨true⟩ cluster (2, .applyReplicatedTxns) next ∧
    (next.replicas 2).node.datastore.get "a" .memory = some none ∧
    (next.replicas 2).node.datastore.get "b" .replicated = some (some "2") := by
  let : BuildProfile := ⟨true⟩
  let trails : NodeId → Prop := (· = 2)
  have silent {cluster : ClusterState} {nodeId : NodeId} {action : Action}
      (free : TakesNextPosition cluster (nodeId, action))
      (kept : ∀ tx, action = .commit tx → TxFits tx) (other : nodeId ≠ 2 ∨ action ≠ .elect (some 2)) :
      Trailing trails cluster (nodeId, action) := by
    refine ⟨free, kept, ?_⟩
    rintro _ rfl same
    cases same
    rcases other with different | different <;> exact different rfl
  have run : Run (Guarded (Trailing trails) Step) .initial
      ([] ++ [(1, .elect (some 1))] ++ [(1, .commit (put "a" "1"))] ++ [(1, .commit (put "b" "2"))] ++
        [(1, .commit (put "c" "3"))] ++
        [(1, .decide 3)] ++ [(2, .adopt 1 3)] ++ [(2, .learn 3)]) _ :=
    ((((((Run.nil.snoc ⟨silent trivial nofun (.inl (by decide)), .mk (.elect (some 1))⟩).snoc
      ⟨silent rfl (by rintro _ ⟨⟩; decide) (.inl (by decide)),
        .mk (.commit (execute_leader rfl sound_new _))⟩).snoc
      ⟨silent rfl (by rintro _ ⟨⟩; decide) (.inl (by decide)),
        .mk (.commit (execute_leader rfl (sound_committed sound_new _) _))⟩).snoc
      ⟨silent rfl (by rintro _ ⟨⟩; decide) (.inl (by decide)),
        .mk (.commit (execute_leader rfl (sound_committed (sound_committed sound_new _) _) _))⟩).snoc
      ⟨silent trivial nofun (.inl (by decide)),
        .mk (.decide (Nat.zero_le 3) (by exact Nat.le_refl 3) List.nil_prefix)⟩).snoc
      ⟨silent trivial nofun (.inr nofun), .mk (.adopt rfl)⟩).snoc
      ⟨silent trivial nofun (.inr nofun),
        .mk (.learn (Nat.zero_le 3) (by exact Nat.le_refl 3) (by exact List.prefix_rfl))⟩
  obtain ⟨item, next, held, step, store⟩ :=
    (followers_show_second_transaction run (rfl : trails 2)).2 (by exact Nat.le_succ 2)
  cases held
  refine ⟨_, next, run.unguarded, step, ?_, ?_⟩
  · rw [store]
    exact stale_get _ _ "a" .memory
  · rw [store]
    exact stale_get _ _ "b" .replicated

end OmniSpacetimeDb.Proofs.ClusterFollowers
