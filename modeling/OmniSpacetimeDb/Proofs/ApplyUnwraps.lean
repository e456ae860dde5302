import OmniSpacetimeDb.Proofs.ClusterInvariant
import OmniSpacetimeDb.Cluster.Host

/-! When a poll unwraps a `None`. Of the three unwraps on its way only that of the
newest offset can fail, on a leader that is marked as promoted and has neither
committed nor replayed anything. -/

namespace OmniSpacetimeDb.Proofs.ApplyUnwraps
open Foundations Datastore Durability OmniPaxosDurability Cluster Store StoreRefinement LogIteration
  NodePoll ClusterInvariant

section Node
variable {node : Node} {omnipaxos : OmniPaxos}

theorem busy_decided (busy : node.nothingToApply omnipaxos = false) :
    ∃ offset, (node.omniDurability omnipaxos).getDurableTxOffsetOptional = some offset := by
  cases decided : (node.omniDurability omnipaxos).getDurableTxOffsetOptional with
  | some offset => exact ⟨offset, rfl⟩
  | none =>
    rw [Node.nothingToApply, decided] at busy
    contradiction

theorem getCurOffset_none_iff {state : CommittedState} :
    state.getCurOffset = none ↔ state.nextTxOffset = 0 := by
  rw [CommittedState.getCurOffset]
  split <;> simp_all

theorem isLeader_iff :
    (node.omniDurability omnipaxos).isLeader = true ↔ omnipaxos.currentLeader = some node.nodeId :=
  beq_iff_eq

theorem takesFromMemory_none (busy : node.nothingToApply omnipaxos = false)
    (none : node.takesFromMemory omnipaxos = none) :
    node.UnwrapsNone omnipaxos := by
  obtain ⟨offset, decided⟩ := busy_decided busy
  simp only [Node.takesFromMemory, decided] at none
  split at none
  next leader =>
    split at none
    next promoted =>
      apply Node.UnwrapsNone.curOffset busy leader promoted
      cases current : node.datastore.getCurOffset with
      | none => rfl
      | some newest =>
        rw [current] at none
        contradiction
    next => contradiction
  next => contradiction

/-- With a log to read from, an entry that is decided can be read. -/
theorem unwraps_iff {log : List DatabaseLogEntry} (decides : omnipaxos.Decides log) :
    node.UnwrapsNone omnipaxos ↔
    node.nothingToApply omnipaxos = false ∧ omnipaxos.currentLeader = some node.nodeId ∧
    node.gotPromotedLeader = true ∧
      node.datastore.nextTxOffset = 0 := by
  constructor
  · intro unwraps
    cases unwraps with
    | curOffset busy leader promoted none =>
      exact ⟨busy, isLeader_iff.mp leader, promoted, getCurOffset_none_iff.mp none⟩
    | lastAppliedIndex busy mode none =>
      obtain ⟨offset, decided⟩ := busy_decided busy
      rw [none] at decided
      contradiction
    | read busy mode none =>
      obtain ⟨offset, decided⟩ := busy_decided busy
      have optional : (node.omniDurability omnipaxos).getDurableTxOffsetOptional = _ := optional_eq decides
      have some_decided : log ≠ [] := by
        rintro rfl
        rw [decided] at optional
        contradiction
      have read := iterStartingFromOffset_eq (node.omniDurability omnipaxos) decides some_decided
        (node.lastAppliedIndex.getD 0)
      rw [none] at read
      contradiction
  · intro ⟨busy, leader, promoted, fresh⟩
    exact .curOffset busy (isLeader_iff.mpr leader) promoted (getCurOffset_none_iff.mpr fresh)

variable [BuildProfile]

theorem unwraps_panics (unwraps : node.UnwrapsNone omnipaxos) :
    node.applyReplicatedTxns omnipaxos = none := by
  cases unwraps with
  | curOffset busy leader promoted none =>
    have mode : node.takesFromMemory omnipaxos = .none := by
      rw [Node.takesFromMemory, if_pos leader, if_pos promoted, none]
      rfl
    rw [Node.applyReplicatedTxns, busy, if_neg Bool.false_ne_true, mode]
    rfl
  | lastAppliedIndex busy mode none =>
    rw [Node.applyReplicatedTxns, busy, if_neg Bool.false_ne_true, mode, none]
    rfl
  | read busy mode none =>
    rw [Node.applyReplicatedTxns, busy, if_neg Bool.false_ne_true, mode, none]
    rfl

/-- Besides the unwraps, only a replay can panic. -/
theorem panics_cases (panics : node.applyReplicatedTxns omnipaxos = none) :
    node.UnwrapsNone omnipaxos ∨ ∃ transactions,
    (node.omniDurability omnipaxos).iterStartingFromOffset
      (node.lastAppliedIndex.getD 0) = some transactions ∧
      node.applyTransactions transactions = none := by
  cases busy : node.nothingToApply omnipaxos with
  | true =>
    rw [Node.applyReplicatedTxns, if_pos busy] at panics
    contradiction
  | false =>
    rw [Node.applyReplicatedTxns, busy, if_neg Bool.false_ne_true] at panics
    obtain ⟨offset, decided⟩ := busy_decided busy
    cases mode : node.takesFromMemory omnipaxos with
    | none => exact .inl (takesFromMemory_none busy mode)
    | some memory =>
      cases memory with
      | true =>
        rw [mode, decided] at panics
        contradiction
      | false =>
        cases iterated : (node.omniDurability omnipaxos).iterStartingFromOffset
          (node.lastAppliedIndex.getD 0) with
        | none => exact .inl (.read busy mode iterated)
        | some transactions =>
          refine .inr ⟨transactions, rfl, ?_⟩
          cases applied : node.applyTransactions transactions with
          | none => rfl
          | some result => simp [mode, iterated, applied] at panics

/-- A leader poll panics only where it applies. -/
theorem update_panics_cases (panics : node.updateLeader omnipaxos = none) : node.TakesOver omnipaxos ∧
    Node.applyReplicatedTxns { node with gotPromotedLeader := true } omnipaxos = none := by
  cases named : omnipaxos.currentLeader with
  | none =>
    rw [update_unnamed named] at panics
    contradiction
  | some leader =>
    cases recorded : node.currentLeader with
    | none =>
      rw [update_first named recorded] at panics
      contradiction
    | some old =>
      have current : (node.omniDurability omnipaxos).getCurrentLeader = some leader := named
      by_cases unchanged : old = leader
      · simp only [Node.updateLeader, current, recorded, if_pos unchanged] at panics
        contradiction
      · by_cases own : old = node.nodeId
        · have different : leader ≠ node.nodeId := fun same => unchanged (own.trans same.symm)
          rw [update_demoted named different (recorded.trans (congrArg some own))] at panics
          contradiction
        · by_cases self : leader = node.nodeId
          · subst self
            rw [update_promoted named own recorded, Option.map_eq_none_iff] at panics
            exact ⟨⟨named, old, recorded, own⟩, recorded ▸ panics⟩
          · rw [update_noted named self fun same =>
              own (Option.some.inj (recorded.symm.trans same))] at panics
            contradiction

end Node

section Replica
variable [BuildProfile] {replica : Replica} {action : Action}

theorem unwraps_is_panic (unwraps : replica.Unwraps action) : replica.Panics action := by
  cases action with
  | updateLeader =>
    obtain ⟨⟨named, old, recorded, different⟩, inside⟩ := unwraps
    have promoted := update_promoted named different recorded
    rw [unwraps_panics inside] at promoted
    exact promoted
  | applyReplicatedTxns => exact unwraps_panics unwraps
  | elect | adopt | decide | learn | commit => contradiction

/-- A panic that is no unwrap is one of a replay. -/
theorem panic_is_unwrap_or_replay (panics : replica.Panics action) :
    replica.Unwraps action ∨ ∃ transactions,
    (replica.node.omniDurability replica.omnipaxos).iterStartingFromOffset
      (replica.node.lastAppliedIndex.getD 0) = some transactions ∧
      ∃ promoted, Node.applyTransactions
        { replica.node with gotPromotedLeader := promoted } transactions = none := by
  cases action with
  | updateLeader =>
    obtain ⟨takesOver, inside⟩ := update_panics_cases panics
    rcases panics_cases inside with unwraps | ⟨transactions, iterated, replay⟩
    · exact .inl ⟨takesOver, unwraps⟩
    · exact .inr ⟨transactions, iterated, true, replay⟩
  | applyReplicatedTxns =>
    rcases panics_cases panics with unwraps | ⟨transactions, iterated, replay⟩
    · exact .inl unwraps
    · exact .inr ⟨transactions, iterated, replica.node.gotPromotedLeader, replay⟩
  | elect | adopt | decide | learn | commit => contradiction

end Replica

/-- There is nothing to apply, or the node has committed or replayed something. -/
def Ready (replica : Replica) : Prop :=
  replica.node.nothingToApply replica.omnipaxos = true ∨ 0 < replica.node.datastore.nextTxOffset

/-- A poll that applies as a leader marked as promoted finds the node ready. -/
def Meets (host : Host) : Action → Prop
  | .updateLeader => host.replica.node.TakesOver host.replica.omnipaxos → Ready host.replica
  | .applyReplicatedTxns => host.replica.currentLeader = some host.replica.node.nodeId →
      host.replica.node.gotPromotedLeader = true → Ready host.replica
  | _ => True

theorem not_ready {replica : Replica} : ¬ Ready replica ↔
    replica.node.nothingToApply replica.omnipaxos = false ∧ replica.node.datastore.nextTxOffset = 0 := by
  rw [Ready, not_or, Bool.not_eq_true, Nat.not_lt, Nat.le_zero]

theorem unwraps_iff_unmet {host : Host} (within : host.replica.decidedIdx ≤ host.replica.log.length)
    (action : Action) :
    host.replica.Unwraps action ↔ ¬ Meets host action := by
  have decides := replica_decides within
  cases action with
  | updateLeader =>
    rw [Meets, Classical.not_imp, not_ready]
    apply and_congr_right
    intro takesOver
    apply (unwraps_iff decides).trans
    exact ⟨fun ⟨busy, _, _, fresh⟩ => ⟨busy, fresh⟩, fun ⟨busy, fresh⟩ => ⟨busy, takesOver.1, rfl, fresh⟩⟩
  | applyReplicatedTxns =>
    rw [Meets, Classical.not_imp, Classical.not_imp, not_ready]
    apply (unwraps_iff decides).trans
    exact ⟨fun ⟨busy, leader, promoted, fresh⟩ => ⟨leader, promoted, busy, fresh⟩,
      fun ⟨leader, promoted, busy, fresh⟩ => ⟨busy, leader, promoted, fresh⟩⟩
  | elect | adopt | decide | learn | commit => exact iff_of_false nofun fun unmet => unmet trivial

section Runs
variable [BuildProfile] {nodeId : NodeId} {actions : List Action} {host : Host}

theorem valid_host {guard : Host → Action → Prop}
    (run : Run (Guarded guard HostStep) (.new nodeId) actions host) :
    Valid nodeId host.replica := by
  apply run.invariant (fun host => Valid nodeId host.replica) (valid_new nodeId)
  intro before action after valid step
  cases step.taken with
  | moves running moves => exact valid_move valid moves
  | unwraps | panics => exact valid

theorem fate_of_meets (run : Run (Guarded Meets HostStep) (.new nodeId) actions host) :
    host.fate ≠ .unwrapped := by
  cases run with
  | nil => nofun
  | snoc before last =>
    obtain ⟨meets, taken⟩ := last
    cases taken with
    | moves | panics => nofun
    | unwraps running unwraps =>
      exact absurd meets ((unwraps_iff_unmet (valid_host before).within _).mp unwraps)

/-- In every run that meets the condition no unwrap has stopped the node, and the
next poll unwraps a `None` if and only if it does not meet the condition. -/
theorem never_unwraps_none (run : Run (Guarded Meets HostStep) (.new nodeId) actions host) :
    host.fate ≠ .unwrapped ∧ ∀ action, host.replica.Unwraps action ↔ ¬ Meets host action :=
  ⟨fate_of_meets run, unwraps_iff_unmet (valid_host run).within⟩

/-- The node takes over with something committed or replayed, and loses the lead
while still marked with something replicated. -/
def Careful (host : Host) : Action → Prop
  | .updateLeader =>
    (host.replica.node.TakesOver host.replica.omnipaxos → 0 < host.replica.node.datastore.nextTxOffset) ∧
      (host.replica.node.gotPromotedLeader = true →
        host.replica.node.currentLeader = some host.replica.node.nodeId →
        host.replica.currentLeader ≠ some host.replica.node.nodeId →
          host.replica.node.datastore.replicatedTxOffset ≠ none)
  | _ => True

/-- A node that is marked as promoted has something to compare with the decided offset. -/
def Marked (node : Node) : Prop := node.gotPromotedLeader = true → 0 < node.datastore.nextTxOffset

theorem Marked.applied {node after : Node} {log : List DatabaseLogEntry} (marked : Marked node)
    (applied : Applied node log after) :
    Marked after := by
  cases applied with
  | idle => exact marked
  | advanced | replayed => nofun

theorem marked_step {before after : Host} {action : Action} (valid : Valid nodeId before.replica)
    (marked : Marked before.replica.node) (step : Guarded Careful HostStep before action after) :
    Marked after.replica.node := by
  obtain ⟨careful, taken⟩ := step
  cases taken with
  | unwraps | panics => exact marked
  | moves running moves =>
    cases moves with
    | elect | adopt | decide | learn => exact marked
    | commit returned =>
      obtain ⟨_, _, rfl⟩ := execute_cases valid.sound returned
      exact fun _ => Nat.succ_pos _
    | applyReplicatedTxns returned => exact marked.applied (poll_applied valid.within returned)
    | updateLeader returned =>
      cases update_cases returned with
      | unnamed | noted => exact marked
      | demoted named different recorded =>
        intro promoted
        have replicated :=
          careful.2 promoted recorded fun same => different (Option.some.inj (named.symm.trans same))
        obtain ⟨offset, known⟩ := Option.ne_none_iff_exists'.mp replicated
        have next : before.replica.node.datastore.rollbackToReplicatedDurabilityOffset.nextTxOffset =
            offset + 1 := by
          rw [CommittedState.rollbackToReplicatedDurabilityOffset, known]
          rfl
        exact next ▸ Nat.succ_pos offset
      | promoted named different recorded applied =>
        have started := careful.1 ⟨named, _, recorded, different⟩
        have shrinks := applied_shrinks (poll_applied valid.within applied)
        exact fun _ => Nat.lt_of_lt_of_le started shrinks.next

/-- A run of a careful node meets the condition: the mark stays off a node without offsets. -/
theorem careful_meets (run : Run (Guarded Careful HostStep) (.new nodeId) actions host) :
    Run (Guarded Meets HostStep) (.new nodeId) actions host ∧ Marked host.replica.node := by
  induction run with
  | nil => exact ⟨.nil, nofun⟩
  | @snoc actions middle action finish before last ih =>
    obtain ⟨meets, marked⟩ := ih
    refine ⟨meets.snoc ⟨?_, last.taken⟩, marked_step (valid_host before) marked last⟩
    have careful := last.allowed
    cases action with
    | updateLeader => exact fun takesOver => .inr (careful.1 takesOver)
    | applyReplicatedTxns => exact fun _ promoted => .inr (marked promoted)
    | elect | adopt | decide | learn | commit => trivial

theorem careful_never_unwraps (run : Run (Guarded Careful HostStep) (.new nodeId) actions host) :
    host.fate ≠ .unwrapped :=
  fate_of_meets (careful_meets run).1

/-- What happens to one node of a cluster is a run of that node. -/
theorem hosted {events : List (NodeId × Action)} {cluster : ClusterState}
    (run : Run Step .initial events cluster) (nodeId : NodeId) :
    Run HostStep (.new nodeId) ((events.filter fun event => event.1 == nodeId).map Prod.snd)
      ⟨cluster.replicas nodeId, .running⟩ := by
  induction run with
  | nil => exact .nil
  | @snoc events middle event finish before last ih =>
    cases last with
    | @mk mover action after moves =>
      rw [List.filter_append, List.map_append]
      by_cases same : mover = nodeId
      · subst same
        rw [middle.record_self]
        simpa using ih.snoc (.moves rfl moves)
      · rw [middle.record_elsewhere action after (Ne.symm same)]
        simpa [same] using ih

/-- A poll of a cluster run that unwraps a `None` ends the run of its node. -/
theorem unwrap_poisons {events : List (NodeId × Action)} {cluster : ClusterState} {action : Action}
    (run : Run Step .initial events cluster) (unwraps : (cluster.replicas nodeId).Unwraps action) :
    (cluster.replicas nodeId).Panics action ∧
      ∃ actions, Run HostStep (.new nodeId) actions ⟨cluster.replicas nodeId, .unwrapped⟩ :=
  ⟨unwraps_is_panic unwraps, _, (hosted run nodeId).snoc (.unwraps rfl unwraps)⟩

theorem meets_move {before after : Replica}
    (run : Run (Guarded Meets HostStep) (.new nodeId) actions ⟨before, .running⟩)
    (cluster : ClusterState) (action : Action) (meets : Meets ⟨before, .running⟩ action)
    (moves : ReplicaStep cluster before action after) :
    Run (Guarded Meets HostStep) (.new nodeId) (actions ++ [action]) ⟨after, .running⟩ :=
  run.snoc ⟨meets, .moves rfl moves⟩

end Runs

theorem never_unwraps_none_marked_leader : ∃ host,
    @Run _ _ (Guarded Meets (@HostStep ⟨true⟩)) (.new 2)
      [.elect (some 1), .updateLeader, .elect (some 2), .commit (put "a" "1"),
      .updateLeader, .decide 1] host ∧
    host.replica.node.gotPromotedLeader = true ∧ ¬ host.replica.Unwraps .applyReplicatedTxns := by
  let : BuildProfile := ⟨true⟩
  have started : Run (Guarded Meets HostStep) (.new 2) [] (.new 2) := .nil
  have followed := meets_move started .initial (.elect (some 1)) trivial (.elect (some 1))
  have noticed := meets_move followed .initial .updateLeader (fun _ => .inl rfl) (.updateLeader rfl)
  have promoted := meets_move noticed .initial (.elect (some 2)) trivial (.elect (some 2))
  have committed := meets_move promoted .initial
    (.commit (put "a" "1")) trivial (.commit (execute_leader rfl sound_new _))
  have marked := meets_move committed .initial .updateLeader (fun _ => .inl rfl) (.updateLeader rfl)
  have run := meets_move marked .initial
    (.decide 1) trivial (.decide (Nat.zero_le 1) (by exact Nat.le_refl 1) List.nil_prefix)
  refine ⟨_, run, rfl, ?_⟩
  intro unwraps
  exact ((never_unwraps_none run).2 .applyReplicatedTxns).mp unwraps fun _ _ => .inr (Nat.succ_pos 0)

/-- Node 2 has recorded node 1 as leader and has learnt its decided entry. When it is
elected before it has applied one, the poll that notices it unwraps a `None`. -/
theorem promotion_poisons_node : ∃ cluster,
    @Run _ _ (@Step ⟨true⟩) .initial
      [(1, .elect (some 1)), (1, .commit (put "a" "1")), (1, .decide 1), (2, .elect (some 1)),
      (2, .updateLeader), (2, .adopt 1 1), (2, .learn 1), (2, .elect (some 2))] cluster ∧
    (cluster.replicas 2).Unwraps .updateLeader ∧ @Replica.Panics ⟨true⟩ (cluster.replicas 2) .updateLeader ∧
    ∃ actions, @Run _ _ (@HostStep ⟨true⟩) (.new 2) actions ⟨cluster.replicas 2, .unwrapped⟩ := by
  let : BuildProfile := ⟨true⟩
  have elected := run_move .nil 1 (.elect (some 1)) rfl (.elect (some 1))
  have committed := run_move elected 1 (.commit (put "a" "1")) (ClusterState.record_self ..)
    (.commit (execute_leader rfl sound_new _))
  have decided := run_move committed 1 (.decide 1) (ClusterState.record_self ..)
    (.decide (Nat.zero_le 1) (Nat.le_refl 1) List.nil_prefix)
  have followed := run_move decided 2 (.elect (some 1)) rfl (.elect (some 1))
  have noticed := run_move followed 2 .updateLeader (ClusterState.record_self ..) (.updateLeader rfl)
  have adopted := run_move noticed 2 (.adopt 1 1) (ClusterState.record_self ..) (.adopt rfl)
  have learnt := run_move adopted 2 (.learn 1) (ClusterState.record_self ..)
    (.learn (Nat.zero_le 1) (Nat.le_refl 1) List.prefix_rfl)
  have run := run_move learnt 2 (.elect (some 2)) (ClusterState.record_self ..) (.elect (some 2))
  refine ⟨_, run, ?unwraps, unwrap_poisons run ?unwraps⟩
  exact ⟨⟨rfl, 1, rfl, by decide⟩, .curOffset rfl rfl rfl rfl⟩

end OmniSpacetimeDb.Proofs.ApplyUnwraps
