import OmniSpacetimeDb.Proofs.ClusterInvariant

/-! What the nodes read of the replicated log, in every run of a cluster: what is
read as decided at a position stays there, for every node that has decided as far. -/

namespace OmniSpacetimeDb.Proofs.LogReads
open Foundations Datastore Durability Cluster OmniPaxosDurability Store LogIteration
  NodePoll ClusterInvariant

section Layer
variable {durability : OmniPaxosDurability} {log : List DatabaseLogEntry}

/-- An entry that is not decided and a position without an entry differ only by a panic. -/
theorem readDecidedAtPosition_eq (decides : durability.omnipaxos.Decides log) (pos : Nat) :
    (durability.readDecidedAtPosition pos).join = log[pos]?.map DatabaseLogEntry.transaction := by
  cases found : log[pos]? with
  | some entry =>
    rw [readDecidedAtPosition, decides.below pos entry found]
    rfl
  | none =>
    have beyond := List.getElem?_eq_none_iff.mp found
    cases held : durability.omnipaxos.read pos with
    | none =>
      rw [readDecidedAtPosition, held]
      rfl
    | some logEntry =>
      cases logEntry with
      | decided entry => exact absurd held (decides.beyond pos entry beyond)
      | undecided entry =>
        rw [readDecidedAtPosition, held]
        rfl

theorem read_some_iff (decides : durability.omnipaxos.Decides log) {pos : Nat}
    {transaction : Nat × TxData} :
    durability.readDecidedAtPosition pos = some (some transaction) ↔
      log[pos]?.map DatabaseLogEntry.transaction = some transaction := by
  rw [← readDecidedAtPosition_eq decides]
  exact Option.join_eq_some_iff.symm

/-- The iteration from an offset lists what is read at the positions after it. -/
theorem iteration_reads (decides : durability.omnipaxos.Decides log) (some_decided : log ≠ [])
    (offset : Nat) :
    ∃ transactions, durability.iterStartingFromOffset offset = some transactions ∧
      ∀ index, transactions[index]? = (durability.readDecidedAtPosition (offset + 1 + index)).join := by
  refine ⟨_, iterStartingFromOffset_eq durability decides some_decided offset, ?_⟩
  intro index
  rw [readDecidedAtPosition_eq decides, List.getElem?_map, List.getElem?_drop]

theorem durable_reads (decides : durability.omnipaxos.Decides log) :
    durability.getDurableTxOffsetOptional =
      (durability.readDecidedAtPosition durability.getDurableTxOffset).join.map Prod.fst := by
  have last : durability.getDurableTxOffset = log.length - 1 := by
    simp only [getDurableTxOffset, lastDecided, decides.length]
    split <;> omega
  rw [optional_eq decides, readDecidedAtPosition_eq decides, last,
    List.getLast?_eq_getElem?, Option.map_map]
  rfl

end Layer

/-- Where something is decided, a replica holds the same or has not decided as far. -/
theorem decided_get {replica : Replica} {decided : List Item} {pos : Nat} {item : Item}
    (known : replica.decidedLog <+: decided) (within : replica.decidedIdx ≤ replica.log.length)
    (held : decided[pos]? = some item) :
    replica.decidedLog[pos]? = if pos < replica.decidedIdx then some item else none := by
  have length : replica.decidedLog.length = replica.decidedIdx := by
    rw [Replica.decidedLog, List.length_take, Nat.min_eq_left within]
  split
  next inside =>
    have below : pos < replica.decidedLog.length := length.symm ▸ inside
    rw [List.getElem?_eq_getElem below, ← held]
    exact (List.prefix_iff_getElem?.mp known pos below).symm
  next beyond =>
    apply List.getElem?_eq_none
    rw [length]
    exact Nat.le_of_not_lt beyond

theorem prefix_get {first second : List Item} {pos : Nat} {item : Item} (grows : first <+: second)
    (held : first[pos]? = some item) :
    second[pos]? = some item := by
  obtain ⟨below, same⟩ := List.getElem?_eq_some_iff.mp held
  rw [← same]
  exact List.prefix_iff_getElem?.mp grows pos below

section Runs
variable [BuildProfile] {cluster later : ClusterState} {events more : List (NodeId × Action)}

/-- The durability layer of a node of the cluster. -/
def layerOf (cluster : ClusterState) (nodeId : NodeId) : OmniPaxosDurability :=
  ⟨(cluster.replicas nodeId).omnipaxos, nodeId⟩

/-- No run takes back what a node has decided. -/
theorem decided_stays (run : Run Step .initial events cluster) (further : Run Step cluster more later)
    (nodeId : NodeId) :
    (cluster.replicas nodeId).decidedLog <+: (later.replicas nodeId).decidedLog := by
  induction further with
  | nil => exact List.prefix_rfl
  | @snoc _ middle _ _ before last ih =>
    refine ih.trans ?_
    have reached : Run (Guarded (fun _ _ => True) Step) .initial _ middle :=
      (run.append before).guarded fun _ _ => trivial
    cases last with
    | @mk changed action after moves =>
      by_cases same : nodeId = changed
      · subst same
        rw [middle.record_self]
        have grows : Grows _ middle after (middle.record nodeId action after) :=
          decided_grows (valid_run reached nodeId).within ((agrees_run reached).known nodeId) moves
        exact grows.mine
      · rw [middle.record_elsewhere action after same]

theorem layer_decides (run : Run Step .initial events cluster) (nodeId : NodeId) :
    (layerOf cluster nodeId).omnipaxos.Decides ((cluster.replicas nodeId).decidedLog.map Item.entry) := by
  have reached : Run (Guarded (fun _ _ => True) Step) .initial _ cluster := run.guarded fun _ _ => trivial
  exact replica_decides (valid_run reached nodeId).within

/-- What one node reads as decided at a position, every node reads there that has
decided as far, from then on: by position, and in the iteration from any offset before
it. The durable offset is the one read at the last decided position. -/
theorem decided_reads_agree {nodeId : NodeId} {pos : Nat} {transaction : Nat × TxData}
    (run : Run Step .initial events cluster) (further : Run Step cluster more later)
    (read : (layerOf cluster nodeId).readDecidedAtPosition pos = some (some transaction)) :
    pos < (later.replicas nodeId).decidedIdx ∧ ∀ other,
      ((layerOf later other).readDecidedAtPosition pos).join =
        (if pos < (later.replicas other).decidedIdx then some transaction else none) ∧
      (layerOf later other).getDurableTxOffsetOptional =
        ((layerOf later other).readDecidedAtPosition (layerOf later other).getDurableTxOffset).join.map
          Prod.fst ∧
      ∀ offset, offset < pos → pos < (later.replicas other).decidedIdx → ∃ transactions,
        (layerOf later other).iterStartingFromOffset offset = some transactions ∧
          transactions[pos - (offset + 1)]? = some transaction := by
  have reached : Run (Guarded (fun _ _ => True) Step) .initial _ later :=
    (run.append further).guarded fun _ _ => trivial
  rw [read_some_iff (layer_decides run nodeId), List.getElem?_map, Option.map_map,
    Option.map_eq_some_iff] at read
  obtain ⟨item, held, made⟩ := read
  have stays : (later.replicas nodeId).decidedLog[pos]? = some item :=
    prefix_get (decided_stays run further nodeId) held
  have known : later.decided[pos]? = some item := prefix_get ((agrees_run reached).known nodeId) stays
  have shown (other : NodeId) : (later.replicas other).decidedLog[pos]? =
      if pos < (later.replicas other).decidedIdx then some item else none :=
    decided_get ((agrees_run reached).known other) (valid_run reached other).within known
  have reads (other : NodeId) : ((layerOf later other).readDecidedAtPosition pos).join =
      if pos < (later.replicas other).decidedIdx then some transaction else none := by
    rw [readDecidedAtPosition_eq (layer_decides (run.append further) other), List.getElem?_map, shown other]
    split
    · exact congrArg some made
    · rfl
  constructor
  · by_contra beyond
    rw [shown nodeId, if_neg beyond] at stays
    cases stays
  · intro other
    refine ⟨reads other, durable_reads (layer_decides (run.append further) other), ?_⟩
    intro offset before inside
    have member : item ∈ (later.replicas other).decidedLog :=
      List.mem_of_getElem? ((shown other).trans (if_pos inside))
    have some_decided : (later.replicas other).decidedLog.map Item.entry ≠ [] :=
      List.ne_nil_of_mem (List.mem_map_of_mem member)
    obtain ⟨transactions, iterates, lists⟩ :=
      iteration_reads (layer_decides (run.append further) other) some_decided offset
    refine ⟨transactions, iterates, ?_⟩
    rw [lists, Nat.add_sub_cancel' before, reads other, if_pos inside]

end Runs

/-- Node 1 reads the second of two transactions, and node 2 iterates over it once it has
learnt that both are decided. -/
theorem decided_reads_agree_two_nodes : ∃ cluster later transactions,
    @Run _ _ (@Step ⟨true⟩) .initial
      [(1, .elect (some 1)), (1, .commit (put "a" "1")), (1, .commit (put "b" "2")),
        (1, .decide 2)] cluster ∧
    @Run _ _ (@Step ⟨true⟩) cluster [(2, .adopt 1 2), (2, .learn 2)] later ∧
    (layerOf later 2).iter = some transactions ∧
    transactions[0]? = some (1, payload (put "b" "2")) := by
  let : BuildProfile := ⟨true⟩
  have elected := run_move .nil 1 (.elect (some 1)) rfl (.elect (some 1))
  have first := run_move elected 1 (.commit (put "a" "1")) (ClusterState.record_self ..)
    (.commit (execute_leader rfl sound_new _))
  have second := run_move first 1 (.commit (put "b" "2")) (ClusterState.record_self ..)
    (.commit (execute_leader rfl (sound_committed sound_new _) _))
  have decided := run_move second 1 (.decide 2) (ClusterState.record_self ..)
    (.decide (Nat.zero_le 2) (Nat.le_refl 2) List.nil_prefix)
  obtain ⟨cluster, later, run, further, read, far⟩ : ∃ cluster later, Run Step .initial _ cluster ∧
      Run Step cluster ([] ++ [(2, .adopt 1 2)] ++ [(2, .learn 2)]) later ∧
      (layerOf cluster 1).readDecidedAtPosition 1 = some (some (1, payload (put "b" "2"))) ∧
      (later.replicas 2).decidedIdx = 2 :=
    ⟨_, _, decided, (Run.nil.snoc (.mk (.adopt rfl))).snoc
      (.mk (.learn (Nat.zero_le 2) (by exact Nat.le_refl 2) (by exact List.prefix_rfl))), rfl, rfl⟩
  obtain ⟨_, agrees⟩ := decided_reads_agree run further read
  obtain ⟨transactions, iterates, lists⟩ :=
    (agrees 2).2.2 0 Nat.zero_lt_one (by rw [far]; exact Nat.one_lt_two)
  exact ⟨cluster, later, transactions, run, further, iterates, lists⟩

end OmniSpacetimeDb.Proofs.LogReads
