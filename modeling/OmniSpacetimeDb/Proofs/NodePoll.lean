import OmniSpacetimeDb.Proofs.LogIteration
import OmniSpacetimeDb.Cluster.Node

/-! What one poll does to a node. The replay loop touches the store and the
applied index only, so it is followed on that pair. -/

namespace OmniSpacetimeDb.Proofs.NodePoll
open Foundations Datastore Durability OmniPaxosDurability Cluster Store StoreRefinement LogIteration

abbrev Core := CommittedState × Option Nat

def core (node : Node) : Core := (node.datastore, node.lastAppliedIndex)

def withCore (node : Node) (core : Core) : Node :=
  { node with datastore := core.1, lastAppliedIndex := core.2 }

section
variable [BuildProfile]

def applyEntry (core : Core) (entry : DatabaseLogEntry) : Panics (Core × Replay) :=
  (replayTransaction entry.txData core.1).map fun (state, replay) =>
    ((state.advanceReplicatedDurabilityOffset entry.txOffset, some entry.txOffset), replay)

def applyEntries : List DatabaseLogEntry → Core → Panics (Core × List Replay)
  | [], core => some (core, [])
  | entry :: entries, core => (applyEntry core entry).bind fun (core, replay) =>
    (applyEntries entries core).map fun (core, replays) => (core, replay :: replays)

theorem applyEntries_cons {entry : DatabaseLogEntry} {entries : List DatabaseLogEntry}
    {before after : Core} {replays : List Replay}
    (applied : applyEntries (entry :: entries) before = some (after, replays)) : ∃ state replay others,
      replayTransaction entry.txData before.1 = some (state, replay) ∧
      applyEntries entries (state.advanceReplicatedDurabilityOffset entry.txOffset,
        some entry.txOffset) = some (after, others) := by
  obtain ⟨⟨middle, replay⟩, first, rest⟩ := Option.bind_eq_some_iff.mp applied
  obtain ⟨⟨last, others⟩, tail, same⟩ := Option.map_eq_some_iff.mp rest
  obtain ⟨⟨state, result⟩, replayed, moved⟩ := Option.map_eq_some_iff.mp first
  cases same
  cases moved
  exact ⟨state, replay, others, replayed, tail⟩

theorem applyEntries_append (entries more : List DatabaseLogEntry) (core : Core) :
    applyEntries (entries ++ more) core =
    (applyEntries entries core).bind fun (core, replays) =>
      (applyEntries more core).map fun (core, others) => (core, replays ++ others) := by
  induction entries generalizing core with
  | nil => simp [applyEntries]
  | cons entry entries ih =>
    simp only [List.cons_append, applyEntries, ih]
    cases applyEntry core entry with
    | none => rfl
    | some step =>
      simp only [Option.bind_some]
      cases applyEntries entries step.1 with
      | none => rfl
      | some rest =>
        simp only [Option.bind_some, Option.map_some]
        cases applyEntries more rest.1 <;> rfl

private theorem applyTransaction_eq (node : Node) (entry : DatabaseLogEntry) :
    node.applyTransaction entry.transaction =
    (applyEntry (core node) entry).map fun (core, replay) => (withCore node core, replay) := by
  simp only [Node.applyTransaction, applyEntry, core, DatabaseLogEntry.transaction]
  cases replayTransaction entry.txData node.datastore <;> rfl

theorem applyTransactions_eq (node : Node) (entries : List DatabaseLogEntry) :
    node.applyTransactions (entries.map DatabaseLogEntry.transaction) =
      (applyEntries entries (core node)).map fun (core, replays) => (withCore node core, replays) := by
  induction entries generalizing node with
  | nil => rfl
  | cons entry entries ih =>
    simp only [List.map_cons, Node.applyTransactions, applyTransaction_eq, applyEntries]
    cases applyEntry (core node) entry with
    | none => rfl
    | some step =>
      simp only [Option.bind_eq_bind, Option.map_some, Option.bind_some, ih]
      have reached : core (withCore node step.1) = step.1 := rfl
      rw [reached]
      cases applyEntries entries step.1 <;> rfl

theorem applyEntries_index {entries : List DatabaseLogEntry} {before after : Core} {replays : List Replay}
    (applied : applyEntries entries before = some (after, replays)) :
    after.2 = (entries.getLast?.map DatabaseLogEntry.txOffset).or before.2 := by
  induction entries generalizing before replays with
  | nil =>
    cases applied
    rfl
  | cons entry entries ih =>
    obtain ⟨state, replay, others, _, tail⟩ := applyEntries_cons applied
    rw [ih tail, List.getLast?_cons]
    cases entries.getLast? <;> rfl

end

section Apply
variable {node : Node} {omnipaxos : OmniPaxos} {log : List DatabaseLogEntry}

theorem isLeader_of_ne (follower : omnipaxos.currentLeader ≠ some node.nodeId) :
    (node.omniDurability omnipaxos).isLeader = false := by
  simpa [isLeader, Node.omniDurability] using follower

theorem takesFromMemory_follower (follower : omnipaxos.currentLeader ≠ some node.nodeId) :
    node.takesFromMemory omnipaxos = some false := by
  rw [Node.takesFromMemory, isLeader_of_ne follower]
  rfl

theorem isLeader_of (leader : omnipaxos.currentLeader = some node.nodeId) :
    (node.omniDurability omnipaxos).isLeader = true := by
  simp [isLeader, Node.omniDurability, leader]

theorem takesFromMemory_leader (leader : omnipaxos.currentLeader = some node.nodeId)
    (direct : node.gotPromotedLeader = false) :
    node.takesFromMemory omnipaxos = some true := by
  rw [Node.takesFromMemory, isLeader_of leader, direct]
  rfl

theorem execute_leader (leader : omnipaxos.currentLeader = some node.nodeId)
    (sound : Sound node.datastore) (tx : ClientTx) :
    node.execute omnipaxos tx = some
      (.ok (⟨node.datastore.nextTxOffset, payload tx⟩, ⟨node.datastore.nextTxOffset, payload tx⟩,
      { node with datastore := committed tx node.datastore })) := by
  have executed := execute_eq sound tx
  obtain ⟨opened, ran, made⟩ := Option.bind_eq_some_iff.mp executed
  have result := Option.some.inj made
  simp only [Node.execute, Node.beginMutTx, isLeader_of leader, if_true, ran,
    Option.bind_eq_bind, Option.bind_some,
    Node.commitMutTx, result]
  rfl

theorem execute_follower (follower : omnipaxos.currentLeader ≠ some node.nodeId) (tx : ClientTx) :
    node.execute omnipaxos tx = some (.error .notLeader) := by
  simp only [Node.execute, Node.beginMutTx, isLeader_of_ne follower, Bool.false_eq_true, if_false]

theorem execute_cases {tx : ClientTx} {result : TxResult} {entry : DatabaseLogEntry} {after : Node}
    (sound : Sound node.datastore)
    (returned : node.execute omnipaxos tx = some (.ok (result, entry, after))) :
    omnipaxos.currentLeader = some node.nodeId ∧ entry = ⟨node.datastore.nextTxOffset, payload tx⟩ ∧
      after = { node with datastore := committed tx node.datastore } := by
  by_cases leader : omnipaxos.currentLeader = some node.nodeId
  · rw [execute_leader leader sound] at returned
    cases returned
    exact ⟨leader, rfl, rfl⟩
  · rw [execute_follower leader] at returned
    cases returned

variable (decides : omnipaxos.Decides log) (positioned : Positioned log)
include decides positioned

theorem optional_lastOffset (node : Node) :
    (node.omniDurability omnipaxos).getDurableTxOffsetOptional = lastOffset log.length := by
  rw [← positioned.last]
  exact optional_eq decides

/-- A promoted leader compares its newest offset with that of the last decided entry. -/
theorem takesFromMemory_promoted (leader : omnipaxos.currentLeader = some node.nodeId)
    (promoted : node.gotPromotedLeader = true) :
    node.takesFromMemory omnipaxos = node.datastore.getCurOffset.bind fun current =>
      (lastOffset log.length).map fun decided => current == decided := by
  simp only [Node.takesFromMemory, isLeader_of leader, promoted, if_true,
    optional_lastOffset decides positioned node,
    Option.bind_eq_bind, Option.pure_def]
  cases node.datastore.getCurOffset <;> cases lastOffset log.length <;> rfl

theorem nothingToApply_iff :
    node.nothingToApply omnipaxos = true ↔ log = [] ∨ node.lastAppliedIndex = lastOffset log.length := by
  rw [Node.nothingToApply, optional_lastOffset decides positioned node]
  cases log with
  | nil => exact ⟨fun _ => .inl rfl, fun _ => rfl⟩
  | cons entry entries =>
    rw [List.length_cons, lastOffset]
    cases node.lastAppliedIndex with
    | none => simp
    | some index => simpa using eq_comm

variable [BuildProfile]

theorem apply_idle (idle : log = [] ∨ node.lastAppliedIndex = lastOffset log.length) :
    node.applyReplicatedTxns omnipaxos = some (node, []) := by
  rw [Node.applyReplicatedTxns, if_pos ((nothingToApply_iff decides positioned).mpr idle)]

theorem apply_replays (some_decided : log ≠ []) (behind : node.lastAppliedIndex ≠ lastOffset log.length)
    (mode : node.takesFromMemory omnipaxos = some false) : node.applyReplicatedTxns omnipaxos =
      (applyEntries (log.drop (node.lastAppliedIndex.getD 0 + 1)) (core node)).map fun (core, replays) =>
        ({ withCore node core with gotPromotedLeader := false }, replays) := by
  have busy : ¬ node.nothingToApply omnipaxos = true := by
    rw [nothingToApply_iff decides positioned]
    exact fun idle => idle.elim some_decided behind
  have iterated := iterStartingFromOffset_eq (node.omniDurability omnipaxos) decides some_decided
    (node.lastAppliedIndex.getD 0)
  simp only [Node.applyReplicatedTxns, if_neg busy, mode, iterated, Option.bind_eq_bind,
    Option.bind_some, Bool.false_eq_true,
    if_false, applyTransactions_eq]
  cases applyEntries (log.drop (node.lastAppliedIndex.getD 0 + 1)) (core node) <;> rfl

theorem apply_advances {offset : Nat} (length : log.length = offset + 1)
    (behind : node.lastAppliedIndex ≠ some offset) (mode : node.takesFromMemory omnipaxos = some true) :
    node.applyReplicatedTxns omnipaxos =
      some ({ withCore node (node.datastore.advanceReplicatedDurabilityOffset offset, some offset) with
        gotPromotedLeader := false }, []) := by
  have busy : ¬ node.nothingToApply omnipaxos = true := by
    rw [nothingToApply_iff decides positioned, length]
    rintro (empty | idle)
    · rw [empty] at length
      cases length
    · exact behind idle
  have optional := optional_lastOffset decides positioned node
  rw [length] at optional
  simp only [Node.applyReplicatedTxns, if_neg busy, mode, optional, Option.bind_eq_bind,
    Option.bind_some, if_true,
    Node.advanceReplicatedDurabilityOffset, lastOffset]
  rfl

/-- A promoted leader that never committed or applied anything has no newest offset to unwrap. -/
theorem apply_panics (some_decided : log ≠ []) (leader : omnipaxos.currentLeader = some node.nodeId)
    (promoted : node.gotPromotedLeader = true) (unread : node.lastAppliedIndex = none)
    (fresh : node.datastore.nextTxOffset = 0) :
    node.applyReplicatedTxns omnipaxos = none := by
  have busy : ¬ node.nothingToApply omnipaxos = true := by
    rw [nothingToApply_iff decides positioned, unread]
    rintro (empty | idle)
    · exact some_decided empty
    · cases log with
      | nil => exact some_decided rfl
      | cons entry entries => cases idle
  have current : node.datastore.getCurOffset = none := by rw [CommittedState.getCurOffset, if_pos fresh]
  simp only [Node.applyReplicatedTxns, if_neg busy,
    takesFromMemory_promoted decides positioned leader promoted, current,
    Option.bind_eq_bind, Option.bind_none]

theorem apply_follower (follower : omnipaxos.currentLeader ≠ some node.nodeId) : ∃ promoted,
    node.applyReplicatedTxns omnipaxos =
      (applyEntries (log.drop (node.lastAppliedIndex.getD 0 + 1)) (core node)).map fun (core, replays) =>
        ({ withCore node core with gotPromotedLeader := promoted }, replays) := by
  by_cases idle : log = [] ∨ node.lastAppliedIndex = lastOffset log.length
  · refine ⟨node.gotPromotedLeader, ?_⟩
    have nothing : log.drop (node.lastAppliedIndex.getD 0 + 1) = [] := by
      rcases idle with empty | reached
      · rw [empty, List.drop_nil]
      · apply List.drop_eq_nil_of_le
        rw [reached]
        cases log.length <;> simp [lastOffset]
    rw [apply_idle decides positioned idle, nothing]
    rfl
  · obtain ⟨some_decided, behind⟩ := not_or.mp idle
    exact ⟨false, apply_replays decides positioned some_decided behind (takesFromMemory_follower follower)⟩

end Apply

section Cases
variable [BuildProfile] {node after : Node} {omnipaxos : OmniPaxos} {log : List DatabaseLogEntry}
  {replays : List Replay}

/-- All that an apply poll can do, whatever offsets the entries carry: nothing, an
advance to the offset of the last decided entry, or replays of decided entries. -/
inductive Applied (node : Node) (log : List DatabaseLogEntry) : Node → Prop
  | idle : Applied node log node
  | advanced {entry : DatabaseLogEntry} (last : log.getLast? = some entry) :
      Applied node log
        { withCore node (node.datastore.advanceReplicatedDurabilityOffset entry.txOffset,
          some entry.txOffset) with
        gotPromotedLeader := false }
  | replayed {core : Core} {replays : List Replay}
      (read : applyEntries (log.drop (node.lastAppliedIndex.getD 0 + 1)) (NodePoll.core node) =
        some (core, replays)) :
      Applied node log { withCore node core with gotPromotedLeader := false }

theorem Applied.nodeId (applied : Applied node log after) : after.nodeId = node.nodeId := by
  cases applied <;> rfl

theorem Applied.currentLeader (applied : Applied node log after) :
    after.currentLeader = node.currentLeader := by
  cases applied <;> rfl

theorem Applied.below (applied : Applied node log after) (positioned : Positioned log)
    (below : ∀ index, node.lastAppliedIndex = some index → index < log.length) :
    ∀ index, after.lastAppliedIndex = some index → index < log.length := by
  intro index reached
  cases applied with
  | idle => exact below index reached
  | advanced last =>
    cases reached
    exact positioned.below (List.mem_of_getLast? last)
  | replayed read =>
    have moved := (applyEntries_index read).symm.trans reached
    rcases Option.or_eq_some_iff.mp moved with read | ⟨_, before⟩
    · obtain ⟨entry, last, rfl⟩ := Option.map_eq_some_iff.mp read
      exact positioned.below ((List.drop_sublist _ _).subset (List.mem_of_getLast? last))
    · exact below index before

theorem Applied.grows (applied : Applied node log after) (positioned : Positioned log)
    (below : ∀ index, node.lastAppliedIndex = some index → index < log.length) {index : Nat}
    (marked : node.lastAppliedIndex = some index) :
    ∃ later, after.lastAppliedIndex = some later ∧ index ≤ later := by
  have inside := below index marked
  have moves {entry : DatabaseLogEntry} (last : log.getLast? = some entry) : index ≤ entry.txOffset := by
    rw [List.getLast?_eq_getElem?] at last
    rw [positioned _ entry last]
    exact Nat.le_sub_one_of_lt inside
  cases applied with
  | idle => exact ⟨index, marked, Nat.le_refl index⟩
  | advanced last => exact ⟨_, rfl, moves last⟩
  | @replayed core replays read =>
    have reached := applyEntries_index read
    rw [List.getLast?_drop] at reached
    split at reached
    · exact ⟨index, reached.trans marked, Nat.le_refl index⟩
    · cases last : log.getLast? with
      | none =>
        rw [last] at reached
        exact ⟨index, reached.trans marked, Nat.le_refl index⟩
      | some entry =>
        rw [last] at reached
        exact ⟨_, reached, moves last⟩

/-- The same without a log to read from: what the call takes from OmniPaxos stays a call. -/
inductive Took (node : Node) (omnipaxos : OmniPaxos) : Node → Prop
  | nothing (idle : node.nothingToApply omnipaxos = true) : Took node omnipaxos node
  | memory {offset : Nat} (busy : node.nothingToApply omnipaxos = false)
      (mode : node.takesFromMemory omnipaxos = some true)
      (decided : (node.omniDurability omnipaxos).getDurableTxOffsetOptional = some offset) :
      Took node omnipaxos
        { withCore node (node.datastore.advanceReplicatedDurabilityOffset offset, some offset) with
        gotPromotedLeader := false }
  | entries {transactions : List (Nat × TxData)} {middle : Node} {replays : List Replay}
      (busy : node.nothingToApply omnipaxos = false)
      (mode : node.takesFromMemory omnipaxos = some false)
      (iterated : (node.omniDurability omnipaxos).iterStartingFromOffset
        (node.lastAppliedIndex.getD 0) = some transactions)
      (applied : node.applyTransactions transactions = some (middle, replays)) :
      Took node omnipaxos { middle with gotPromotedLeader := false }

theorem apply_took (returned : node.applyReplicatedTxns omnipaxos = some (after, replays)) :
    Took node omnipaxos after := by
  rw [Node.applyReplicatedTxns] at returned
  cases busy : node.nothingToApply omnipaxos with
  | true =>
    rw [if_pos busy] at returned
    cases returned
    exact .nothing busy
  | false =>
    rw [busy, if_neg Bool.false_ne_true] at returned
    obtain ⟨memory, mode, took⟩ := Option.bind_eq_some_iff.mp returned
    cases memory with
    | true =>
      obtain ⟨advanced, moved, made⟩ := Option.bind_eq_some_iff.mp took
      obtain ⟨offset, decided, moved⟩ := Option.bind_eq_some_iff.mp moved
      cases moved
      cases made
      have took := Took.memory busy mode decided
      rw [withCore, ← decided] at took
      exact took
    | false =>
      obtain ⟨transactions, iterated, took⟩ := Option.bind_eq_some_iff.mp took
      obtain ⟨⟨middle, others⟩, applied, made⟩ := Option.bind_eq_some_iff.mp took
      cases made
      exact .entries busy mode iterated applied

theorem apply_cases (decides : omnipaxos.Decides log)
    (returned : node.applyReplicatedTxns omnipaxos = some (after, replays)) :
    after = node ∨ node.nothingToApply omnipaxos = false ∧ Applied node log after := by
  have optional : (node.omniDurability omnipaxos).getDurableTxOffsetOptional = _ := optional_eq decides
  cases apply_took returned with
  | nothing => exact .inl rfl
  | @memory offset busy mode decided =>
    obtain ⟨entry, last, rfl⟩ := Option.map_eq_some_iff.mp (optional.symm.trans decided)
    exact .inr ⟨busy, .advanced last⟩
  | entries busy mode iterated applied =>
    refine .inr ⟨busy, ?_⟩
    have some_decided : log ≠ [] := by
      rintro rfl
      rw [Node.nothingToApply, optional] at busy
      cases busy
    rw [iterStartingFromOffset_eq _ decides some_decided] at iterated
    cases iterated
    rw [applyTransactions_eq] at applied
    obtain ⟨⟨core, others⟩, read, made⟩ := Option.map_eq_some_iff.mp applied
    cases made
    exact .replayed read

end Cases

section UpdateLeader
variable [BuildProfile] {node : Node} {omnipaxos : OmniPaxos}

theorem update_unnamed (absent : omnipaxos.currentLeader = none) :
    node.updateLeader omnipaxos = some (node, []) := by
  have current : (node.omniDurability omnipaxos).getCurrentLeader = none := absent
  simp only [Node.updateLeader, current]

theorem update_noted {leader : NodeId} (named : omnipaxos.currentLeader = some leader)
    (different : leader ≠ node.nodeId) (recorded : node.currentLeader ≠ some node.nodeId) :
    node.updateLeader omnipaxos = some ({ node with currentLeader := some leader }, []) := by
  obtain ⟨nodeId, datastore, lastAppliedIndex, old, promoted⟩ := node
  have current : (Node.omniDurability
      ⟨nodeId, datastore, lastAppliedIndex, old, promoted⟩ omnipaxos).getCurrentLeader =
    some leader := named
  simp only [Node.updateLeader, current]
  cases old with
  | none => rfl
  | some before =>
    by_cases same : before = leader
    · simp only [same, if_true]
    · have notSelf : before ≠ nodeId := fun self => recorded (congrArg some self)
      simp only [if_neg same, if_neg notSelf, if_neg different]
      rfl

theorem update_follower (follower : omnipaxos.currentLeader ≠ some node.nodeId)
    (recorded : node.currentLeader ≠ some node.nodeId) :
    ∃ leader, leader ≠ some node.nodeId ∧
      node.updateLeader omnipaxos = some ({ node with currentLeader := leader }, []) := by
  cases named : omnipaxos.currentLeader with
  | none => exact ⟨node.currentLeader, recorded, update_unnamed named⟩
  | some leader =>
    rw [named] at follower
    exact ⟨some leader, follower, update_noted named (fun self => follower (congrArg some self)) recorded⟩

/-- The recorded leader rolls back when it finds another node named. -/
theorem update_demoted {other : NodeId} (named : omnipaxos.currentLeader = some other)
    (different : other ≠ node.nodeId) (recorded : node.currentLeader = some node.nodeId) :
    node.updateLeader omnipaxos =
      some ({ node with
        datastore := node.datastore.rollbackToReplicatedDurabilityOffset, currentLeader :=
        some other }, []) := by
  have current : (node.omniDurability omnipaxos).getCurrentLeader = some other := named
  simp only [Node.updateLeader, current, recorded, if_neg (Ne.symm different), if_true]
  rfl

theorem update_first {leader : NodeId} (named : omnipaxos.currentLeader = some leader)
    (unrecorded : node.currentLeader = none) :
    node.updateLeader omnipaxos = some ({ node with currentLeader := some leader }, []) := by
  have current : (node.omniDurability omnipaxos).getCurrentLeader = some leader := named
  simp only [Node.updateLeader, current, unrecorded]

theorem update_promoted {old : NodeId} (named : omnipaxos.currentLeader = some node.nodeId)
    (different : old ≠ node.nodeId) (recorded : node.currentLeader = some old) :
    node.updateLeader omnipaxos =
      (Node.applyReplicatedTxns { node with gotPromotedLeader := true } omnipaxos).map
        fun (node, replays) =>
          ({ node with currentLeader := omnipaxos.currentLeader }, replays) := by
  obtain ⟨nodeId, datastore, lastAppliedIndex, leader, promoted⟩ := node
  obtain rfl : leader = some old := recorded
  have current : (Node.omniDurability
      ⟨nodeId, datastore, lastAppliedIndex, some old, promoted⟩ omnipaxos).getCurrentLeader =
    some nodeId := named
  simp only [Node.updateLeader, current, if_neg different, if_true, named]
  cases Node.applyReplicatedTxns ⟨nodeId, datastore, lastAppliedIndex, some old, true⟩ omnipaxos <;> rfl

/-- All that a leader poll can do. The store is touched only when this node was
recorded as leader, or is promoted in the place of another one. -/
inductive Updated (node : Node) (omnipaxos : OmniPaxos) : Node → Prop
  | unnamed (absent : omnipaxos.currentLeader = none) : Updated node omnipaxos node
  | noted {leader : NodeId} (named : omnipaxos.currentLeader = some leader)
      (keeps : node.currentLeader = some node.nodeId → leader = node.nodeId) :
      Updated node omnipaxos { node with currentLeader := some leader }
  | demoted {leader : NodeId} (named : omnipaxos.currentLeader = some leader)
      (different : leader ≠ node.nodeId) (recorded : node.currentLeader = some node.nodeId) :
      Updated node omnipaxos
        { node with
          datastore := node.datastore.rollbackToReplicatedDurabilityOffset, currentLeader := some leader }
  | promoted {old : NodeId} {middle : Node} {replays : List Replay}
      (named : omnipaxos.currentLeader = some node.nodeId) (different : old ≠ node.nodeId)
      (recorded : node.currentLeader = some old)
      (applied : Node.applyReplicatedTxns { node with gotPromotedLeader := true } omnipaxos =
        some (middle, replays)) :
      Updated node omnipaxos { middle with currentLeader := some node.nodeId }

theorem update_cases {after : Node} {replays : List Replay}
    (returned : node.updateLeader omnipaxos = some (after, replays)) :
    Updated node omnipaxos after := by
  cases named : omnipaxos.currentLeader with
  | none =>
    rw [update_unnamed named] at returned
    cases returned
    exact .unnamed named
  | some leader =>
    cases recorded : node.currentLeader with
    | none =>
      rw [update_first named recorded] at returned
      cases returned
      exact .noted named fun self => by rw [recorded] at self; cases self
    | some old =>
      by_cases self : old = node.nodeId <;> by_cases same : leader = node.nodeId
      · have current : (node.omniDurability omnipaxos).getCurrentLeader = some leader := named
        have unchanged : old = leader := self.trans same.symm
        simp only [Node.updateLeader, current, recorded, if_pos unchanged] at returned
        cases returned
        have noted := Updated.noted named fun _ => same
        rwa [← unchanged, ← recorded] at noted
      · rw [self] at recorded
        rw [update_demoted named same recorded] at returned
        cases returned
        exact .demoted named same recorded
      · subst same
        rw [update_promoted named self recorded] at returned
        obtain ⟨⟨middle, others⟩, applied, made⟩ := Option.map_eq_some_iff.mp returned
        cases made
        rw [named]
        exact .promoted named self recorded applied
      · have unrecorded : node.currentLeader ≠ some node.nodeId :=
          fun equal => self (Option.some.inj (recorded.symm.trans equal))
        rw [update_noted named same unrecorded] at returned
        cases returned
        exact .noted named fun equal => absurd equal unrecorded

end UpdateLeader

end OmniSpacetimeDb.Proofs.NodePoll
