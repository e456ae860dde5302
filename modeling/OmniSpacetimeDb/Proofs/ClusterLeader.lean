import OmniSpacetimeDb.Proofs.ClusterInvariant

/-! A node that is the only leader it ever sees, in every run of a cluster. As long
as it applies when all that it has accepted is decided, its store is the ledger of
what it accepted, and what it shows as replicated is decided. -/

namespace OmniSpacetimeDb.Proofs.ClusterLeader
open Foundations WriteLog Datastore Durability Cluster Store StoreRefinement LogIteration
  NodePoll ClusterInvariant

/-- Nothing that the replica has accepted and that is not decided yet has any writes. -/
def WritesDecided (replica : Replica) : Prop :=
  ∀ item ∈ replica.accepted.drop replica.decidedIdx, writes item.tx.calls = ∅

/-- The leader sees only itself elected, takes over no other log, and applies
either nothing new or all that it has accepted. -/
def Steady (leader : NodeId) (replica : Replica) : Action → Prop
  | .elect other => other = some leader
  | .adopt _ _ => False
  | .applyReplicatedTxns => replica.node.lastAppliedIndex =
      lastOffset replica.decidedIdx ∨ WritesDecided replica
  | _ => True

/-- What the replica has accepted, of which this many transactions are replicated. -/
def ledgerOf (accepted : List Item) (count : Nat) (within : count ≤ accepted.length) :
    Ledger String String where
  log := accepted.map fun item => writeSet item.tx
  replicated := count
  within := by rwa [List.length_map]

theorem ledgerOf_commit {accepted : List Item} {count : Nat} (within : count ≤ accepted.length)
    (item : Item) (more : count ≤ (accepted ++ [item]).length) :
    (ledgerOf accepted count within).commit (writeSet item.tx) =
      ledgerOf (accepted ++ [item]) count more := by
  apply Ledger.ext
  · simp only [ledgerOf, Ledger.commit, List.map_append, List.map_cons, List.map_nil]
  · rfl

structure Leads (leader : NodeId) (replica : Replica) (count : Nat) : Prop where
  identity : replica.node.nodeId = leader
  log : replica.log = replica.accepted
  entries : ∀ (position : Nat) (item : Item), replica.accepted[position]? = some item →
    item.entry = ⟨position, payload item.tx⟩
  decided : replica.decidedIdx ≤ replica.accepted.length
  applied : replica.node.lastAppliedIndex = lastOffset count
  within : count ≤ replica.decidedIdx
  tracks : Tracks replica.node.datastore (ledgerOf replica.accepted count (within.trans decided))
  named : replica.currentLeader = some leader ∨ replica.currentLeader = none ∧ replica.accepted = []
  recorded : replica.node.currentLeader = none ∨ replica.node.currentLeader = some leader
  unpromoted : replica.node.gotPromotedLeader = false

theorem leads_new (leader : NodeId) : Leads leader (.new leader) 0 := by
  refine ⟨rfl, rfl, nofun, Nat.le_refl 0, rfl, Nat.le_refl 0, tracks_new, .inr ⟨rfl, rfl⟩, .inl rfl, rfl⟩

section Moves
variable {leader : NodeId} {replica : Replica} {count : Nat}

theorem Leads.positioned (leads : Leads leader replica count) :
    Positioned (replica.decidedLog.map Item.entry) := by
  rw [Replica.decidedLog, List.map_take, leads.log]
  apply Positioned.take
  intro position entry found
  rw [List.getElem?_map] at found
  obtain ⟨item, held, rfl⟩ := Option.map_eq_some_iff.mp found
  rw [leads.entries position item held]

theorem Leads.decides (leads : Leads leader replica count) :
    replica.omnipaxos.Decides (replica.decidedLog.map Item.entry) := by
  apply replica_decides
  rw [leads.log]
  exact leads.decided

theorem Leads.length (leads : Leads leader replica count) :
    (replica.decidedLog.map Item.entry).length = replica.decidedIdx :=
  leads.decides.length.symm

/-- What waits to be replicated was written by decided transactions. -/
theorem history_decided (leads : Leads leader replica count) (all : WritesDecided replica)
    {key : String} {entry : Nat × Option String}
    (waiting : entry ∈ (ledgerOf replica.accepted count (leads.within.trans leads.decided)).unstable key) :
    entry.1 < replica.decidedIdx := by
  have split : (replica.accepted.map fun item => writeSet item.tx).drop count =
      ((replica.accepted.take replica.decidedIdx).drop count).map (fun item => writeSet item.tx) ++
        (replica.accepted.drop replica.decidedIdx).map fun item => writeSet item.tx := by
    have short : count ≤ (replica.accepted.take replica.decidedIdx).length := by
      rw [List.length_take, Nat.min_eq_left leads.decided]
      exact leads.within
    rw [← List.map_append, ← List.drop_append_of_le_length short, List.take_append_drop, List.map_drop]
  have unwritten :
      ∀ writes ∈ (replica.accepted.drop replica.decidedIdx).map (fun item => writeSet item.tx),
        writes key = none := by
    intro written member
    obtain ⟨item, inside, rfl⟩ := List.mem_map.mp member
    rw [writeSet, all item inside, Finmap.lookup_empty]
    rfl
  simp only [Ledger.unstable, ledgerOf, split, history_append, history_unwritten unwritten,
    List.append_nil] at waiting
  have range := (history_range waiting).2
  have within := leads.within
  have decided := leads.decided
  rw [List.length_map, List.length_drop, List.length_take] at range
  omega

/-- An advance to the last decided entry meets no diff beyond it. -/
theorem Leads.clear (leads : Leads leader replica count) (all : WritesDecided replica) {offset : Nat}
    (last : replica.decidedIdx = offset + 1) : Clear replica.node.datastore offset := by
  intro key entry member
  have waiting : (entry.1, entry.2.value) ∈
      (ledgerOf replica.accepted count (leads.within.trans leads.decided)).unstable key := by
    rw [← leads.tracks.unstable]
    exact List.mem_map.mpr ⟨entry, member, rfl⟩
  have range := history_decided leads all waiting
  rw [last] at range
  exact Nat.le_of_lt_succ range

theorem Leads.commit (leads : Leads leader replica count) (tx : ClientTx) (id : Nat)
    (named : replica.currentLeader = some leader) (unnoticed : Bool) : Leads leader { replica with
      node := { replica.node with datastore := committed tx replica.node.datastore }
      log := replica.log ++ [⟨id, tx, ⟨replica.node.datastore.nextTxOffset, payload tx⟩⟩]
      accepted := replica.accepted ++ [⟨id, tx, ⟨replica.node.datastore.nextTxOffset, payload tx⟩⟩]
      unnoticed } count := by
  have next : replica.node.datastore.nextTxOffset = replica.accepted.length := by
    rw [leads.tracks.next, ledgerOf, List.length_map]
  refine ⟨leads.identity, congrArg (· ++ _) leads.log, ?_, ?_, leads.applied, leads.within, ?_,
    .inl named, leads.recorded, leads.unpromoted⟩
  · rw [forall_snoc_iff, next]
    exact ⟨leads.entries, rfl⟩
  · rw [List.length_append]
    exact Nat.le_add_right_of_le leads.decided
  · rw [← ledgerOf_commit (leads.within.trans leads.decided)]
    exact leads.tracks.commit tx

theorem Leads.idle (leads : Leads leader replica count)
    (idle : replica.decidedLog.map Item.entry = [] ∨
      replica.node.lastAppliedIndex = lastOffset (replica.decidedLog.map Item.entry).length) :
    count = replica.decidedIdx := by
  have within := leads.within
  rcases idle with empty | reached
  · have length := leads.length
    rw [empty, List.length_nil] at length
    omega
  · rw [leads.length, leads.applied] at reached
    cases count <;> cases known : replica.decidedIdx <;> simp [lastOffset, known] at reached ⊢
    exact reached

variable [BuildProfile]

theorem Leads.update {node : Node} {replays : List Replay} (leads : Leads leader replica count)
    (returned : replica.node.updateLeader replica.omnipaxos = some (node, replays)) (unnoticed : Bool) :
    Leads leader { replica with node, unnoticed } count := by
  have only {other : NodeId} (named : replica.omnipaxos.currentLeader = some other) : other = leader := by
    rcases leads.named with self | ⟨none, _⟩
    · exact Option.some.inj (named.symm.trans self)
    · cases named.symm.trans none
  cases update_cases returned with
  | unnamed => exact { leads with }
  | noted named => exact { leads with recorded := .inr (congrArg some (only named)) }
  | demoted named different => exact absurd ((only named).trans leads.identity.symm) different
  | @promoted old middle others named different recorded applied =>
    rcases leads.recorded with none | self
    · rw [none] at recorded
      cases recorded
    · rw [self] at recorded
      cases recorded
      exact absurd leads.identity.symm different

/-- An apply poll returns, and replicates all that is decided. -/
theorem Leads.apply (leads : Leads leader replica count)
    (steady : Steady leader replica .applyReplicatedTxns) :
    ∃ node, replica.node.applyReplicatedTxns replica.omnipaxos = some (node, []) ∧
      ∀ unnoticed, Leads leader { replica with node, unnoticed } replica.decidedIdx := by
  have decides := leads.decides
  have positioned := leads.positioned
  have length := leads.length
  by_cases idle : replica.decidedLog.map Item.entry = [] ∨
    replica.node.lastAppliedIndex = lastOffset (replica.decidedLog.map Item.entry).length
  · refine ⟨replica.node, apply_idle decides positioned idle, ?_⟩
    obtain rfl := leads.idle idle
    exact fun unnoticed => { leads with }
  · obtain ⟨some_decided, behind⟩ := not_or.mp idle
    rw [length] at behind
    have all := steady.resolve_left behind
    have positive : replica.decidedIdx ≠ 0 := by
      rw [← length]
      exact mt List.eq_nil_of_length_eq_zero some_decided
    obtain ⟨offset, last⟩ : ∃ offset, replica.decidedIdx = offset + 1 :=
      Nat.exists_eq_succ_of_ne_zero positive
    have named : replica.omnipaxos.currentLeader = some replica.node.nodeId := by
      rcases leads.named with self | ⟨_, none⟩
      · rw [leads.identity]
        exact self
      · have decided := leads.decided
        rw [none, last] at decided
        cases decided
    have mode := takesFromMemory_leader named leads.unpromoted
    have within : offset + 1 ≤ replica.accepted.length :=
      Nat.le_trans (Nat.le_of_eq last.symm) leads.decided
    have tracks := leads.tracks.advance_clear (by rw [ledgerOf, List.length_map]; exact within)
      (leads.within.trans (Nat.le_of_eq last))
      (leads.clear all last)
    rw [last] at length behind
    refine ⟨_, apply_advances decides positioned length behind mode, ?_⟩
    intro unnoticed
    have replicated : Leads leader { replica with
        node := { withCore replica.node
          (replica.node.datastore.advanceReplicatedDurabilityOffset offset, some offset) with
          gotPromotedLeader := false }
        unnoticed } (offset + 1) :=
      { leads with applied := rfl, within := Nat.le_of_eq last.symm, tracks := tracks, unpromoted := rfl }
    exact last ▸ replicated

theorem leads_move {cluster : ClusterState} {after : Replica} {action : Action}
    (leads : Leads leader replica count) (steady : Steady leader replica action)
    (moves : ReplicaStep cluster replica action after) : ∃ later, Leads leader after later := by
  cases moves with
  | elect other =>
    obtain rfl : other = some leader := steady
    exact ⟨count, { leads with named := .inl rfl }⟩
  | adopt => cases steady
  | decide grows within | learn grows within =>
    rw [leads.log] at within
    exact ⟨count, { leads with decided := within, within := leads.within.trans grows }⟩
  | commit returned =>
    obtain ⟨named, rfl, rfl⟩ := execute_cases leads.tracks.sound returned
    rw [leads.identity] at named
    exact ⟨count, leads.commit _ _ named _⟩
  | updateLeader returned => exact ⟨count, leads.update returned _⟩
  | applyReplicatedTxns returned =>
    obtain ⟨node, polled, applied⟩ := leads.apply steady
    rw [polled] at returned
    cases returned
    exact ⟨_, applied _⟩

/-- The leader shows all that it accepted in memory, and a decided part of it as
replicated, whatever the other nodes do; and its next poll shows all that is decided. -/
theorem steady_leader_shows_its_log {events : List (NodeId × Action)} {cluster : ClusterState}
    (leader : NodeId)
    (run : Run
      (Guarded (fun cluster event => event.1 = leader →
        Steady leader (cluster.replicas leader) event.2) Step)
      .initial events cluster) :
    ∃ count, (cluster.replicas leader).node.lastAppliedIndex = lastOffset count ∧
    (cluster.replicas leader).accepted.take count <+: cluster.decided ∧
    (∀ (position : Nat) (item : Item), (cluster.replicas leader).accepted[position]? = some item →
      item.entry = ⟨position, payload item.tx⟩) ∧
    (∀ key, (cluster.replicas leader).node.datastore.get key .memory =
        some (replay ((cluster.replicas leader).accepted.map fun item => writeSet item.tx)
          WriteLog.empty key) ∧
      (cluster.replicas leader).node.datastore.get key .replicated =
        some (replay (((cluster.replicas leader).accepted.take count).map fun item => writeSet item.tx)
          WriteLog.empty key)) ∧
    (Steady leader (cluster.replicas leader) .applyReplicatedTxns →
      ∃ next, Step cluster (leader, .applyReplicatedTxns) next ∧
      (next.replicas leader).node.lastAppliedIndex = lastOffset (cluster.replicas leader).decidedIdx) := by
  have leads : ∃ count, Leads leader (cluster.replicas leader) count := by
    refine run.invariant (fun cluster => ∃ count, Leads leader (cluster.replicas leader) count)
      ⟨0, leads_new leader⟩ ?_
    rintro before event after ⟨count, leads⟩ ⟨steady, taken⟩
    cases taken with
    | @mk nodeId action moved moves =>
      by_cases same : nodeId = leader
      · subst same
        rw [before.record_self]
        exact leads_move leads (steady rfl) moves
      · rw [before.record_elsewhere action moved (Ne.symm same)]
        exact ⟨count, leads⟩
  obtain ⟨count, leads⟩ := leads
  have known := (agrees_run run).known leader
  refine ⟨count, leads.applied, ?_, leads.entries, ?_, ?_⟩
  · rw [Replica.decidedLog, leads.log] at known
    exact (List.take_prefix_take_left leads.within).trans known
  · intro key
    have views := leads.tracks.refines
    refine ⟨views.memory key, ?_⟩
    rw [views.replicated key, List.map_take]
    rfl
  · intro steady
    obtain ⟨node, polled, applied⟩ := leads.apply steady
    refine ⟨_, .mk (.applyReplicatedTxns polled), ?_⟩
    rw [ClusterState.record_self]
    exact (applied true).applied

end Moves

/-- Node 1 accepts two transactions, of which one is decided when it polls; the other has no
writes. -/
theorem steady_leader_shows_its_log_two_commits : ∃ cluster next,
    @Run _ _ (@Step ⟨true⟩) .initial
      [(1, .elect (some 1)), (1, .commit (put "a" "1")), (1, .commit ⟨[.get "a"], ∅, rfl⟩), (1, .decide 1)]
      cluster ∧
    @Step ⟨true⟩ cluster (1, .applyReplicatedTxns) next ∧
    (next.replicas 1).node.lastAppliedIndex = some 0 := by
  let : BuildProfile := ⟨true⟩
  have run : Run
      (Guarded (fun cluster event => event.1 = 1 → Steady 1 (cluster.replicas 1) event.2) Step) .initial
      ([] ++ [(1, .elect (some 1))] ++ [(1, .commit (put "a" "1"))] ++
        [(1, .commit ⟨[.get "a"], ∅, rfl⟩)] ++ [(1, .decide 1)]) _ :=
    (((Run.nil.snoc ⟨fun _ => rfl, .mk (.elect (some 1))⟩).snoc
      ⟨fun _ => trivial, .mk (.commit (execute_leader rfl sound_new _))⟩).snoc
      ⟨fun _ => trivial, .mk (.commit (execute_leader rfl (sound_committed sound_new _) _))⟩).snoc
      ⟨fun _ => trivial, .mk (.decide (Nat.zero_le 1) (by exact Nat.le_succ 1) List.nil_prefix)⟩
  obtain ⟨_, _, _, _, _, polls⟩ := steady_leader_shows_its_log 1 run
  obtain ⟨next, step, applied⟩ := polls (.inr (by
    intro item member
    obtain rfl := List.mem_singleton.mp member
    rfl))
  exact ⟨_, next, run.unguarded, step, applied⟩

end OmniSpacetimeDb.Proofs.ClusterLeader
