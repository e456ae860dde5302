import OmniSpacetimeDb.Proofs.Watermark

/-! A node as a user of its store. Whatever a call of the node does to the store
is a run of the store's own operations, and what it does not lock it does not change. -/

namespace OmniSpacetimeDb.Proofs.NodeOperations
open Foundations Datastore Durability OmniPaxosDurability Cluster Store NodePoll

/-- The calls of the transaction that an operation commits. -/
def committedCalls : Operation → Option (List Call)
  | .commit tx => some tx.calls
  | .advance _ | .rollback | .replay _ => none

section
variable [BuildProfile] {node after : Node} {omnipaxos : OmniPaxos} {replays : List Replay}

/-- A run of operations of the store none of which commits. -/
def Settles (before after : CommittedState) : Prop :=
  ∃ operations, Run Operates before operations after ∧ operations.filterMap committedCalls = []

theorem Settles.refl (state : CommittedState) : Settles state state := ⟨[], .nil, rfl⟩

theorem Settles.step {before middle after : CommittedState} {operation : Operation}
    (settles : Settles before middle) (operates : Operates middle operation after)
    (uncommitted : committedCalls operation = none) : Settles before after := by
  obtain ⟨operations, run, none⟩ := settles
  refine ⟨operations ++ [operation], run.snoc operates, ?_⟩
  rw [List.filterMap_append, none, List.filterMap_cons_none uncommitted]
  rfl

theorem Settles.trans {before middle after : CommittedState} (first : Settles before middle)
    (second : Settles middle after) :
    Settles before after := by
  obtain ⟨operations, run, none⟩ := first
  obtain ⟨more, further, others⟩ := second
  refine ⟨operations ++ more, run.append further, ?_⟩
  rw [List.filterMap_append, none, others]
  rfl

theorem transactions_settle {transactions : List (Nat × TxData)}
    (applied : node.applyTransactions transactions = some (after, replays)) :
    Settles node.datastore after.datastore := by
  induction transactions generalizing node replays with
  | nil =>
    cases applied
    exact .refl _
  | cons transaction transactions ih =>
    obtain ⟨⟨middle, replay⟩, first, rest⟩ := Option.bind_eq_some_iff.mp applied
    obtain ⟨⟨last, others⟩, tail, made⟩ := Option.bind_eq_some_iff.mp rest
    obtain ⟨⟨state, result⟩, replayed, moved⟩ := Option.bind_eq_some_iff.mp first
    cases made
    cases moved
    have one :=
      ((Settles.refl node.datastore).step (.replay replayed) rfl).step (.advance transaction.1) rfl
    exact one.trans (ih tail)

theorem apply_settles (returned : node.applyReplicatedTxns omnipaxos = some (after, replays)) :
    Settles node.datastore after.datastore := by
  cases apply_took returned with
  | nothing => exact .refl _
  | memory => exact (Settles.refl _).step (.advance _) rfl
  | entries _ _ _ applied =>
    have settles := transactions_settle applied
    exact settles

theorem update_settles (returned : node.updateLeader omnipaxos = some (after, replays)) :
    Settles node.datastore after.datastore := by
  cases update_cases returned with
  | unnamed | noted => exact .refl _
  | demoted => exact (Settles.refl _).step .rollback rfl
  | promoted _ _ _ applied =>
    have settles := apply_settles applied
    exact settles

theorem transactions_nodeId {transactions : List (Nat × TxData)}
    (applied : node.applyTransactions transactions = some (after, replays)) :
    after.nodeId = node.nodeId := by
  induction transactions generalizing node replays with
  | nil =>
    cases applied
    rfl
  | cons transaction transactions ih =>
    obtain ⟨⟨middle, replay⟩, first, rest⟩ := Option.bind_eq_some_iff.mp applied
    obtain ⟨⟨last, others⟩, tail, made⟩ := Option.bind_eq_some_iff.mp rest
    obtain ⟨⟨state, result⟩, _, moved⟩ := Option.bind_eq_some_iff.mp first
    cases made
    cases moved
    have same := ih tail
    exact same

theorem apply_nodeId (returned : node.applyReplicatedTxns omnipaxos = some (after, replays)) :
    after.nodeId = node.nodeId := by
  cases apply_took returned with
  | nothing | memory => rfl
  | entries _ _ _ applied =>
    have same := transactions_nodeId applied
    exact same

theorem update_nodeId (returned : node.updateLeader omnipaxos = some (after, replays)) :
    after.nodeId = node.nodeId := by
  cases update_cases returned with
  | unnamed | noted | demoted => rfl
  | promoted _ _ _ applied =>
    have same := apply_nodeId applied
    exact same

/-- A call that takes no write lock of the store leaves it as it is. -/
theorem apply_unwritten (unwritten : .write ∉ node.applyLocks omnipaxos)
    (returned : node.applyReplicatedTxns omnipaxos = some (after, replays)) :
    core after = core node := by
  cases apply_took returned with
  | nothing => rfl
  | memory busy mode =>
    rw [Node.applyLocks, busy, if_neg Bool.false_ne_true] at unwritten
    cases leader : (node.omniDurability omnipaxos).isLeader with
    | true =>
      rw [leader, if_pos rfl, mode] at unwritten
      split at unwritten <;> simp at unwritten
    | false =>
      rw [Node.takesFromMemory, leader] at mode
      cases mode
  | @entries transactions middle others busy mode iterated applied =>
    cases transactions with
    | nil =>
      cases applied
      rfl
    | cons transaction transactions =>
      simp only [Node.applyLocks, busy, iterated, mode, Bool.false_eq_true, if_false] at unwritten
      cases leader : (node.omniDurability omnipaxos).isLeader with
      | true =>
        rw [leader, if_pos rfl] at unwritten
        split at unwritten <;> simp at unwritten
      | false =>
        rw [leader, if_neg Bool.false_ne_true] at unwritten
        simp at unwritten

theorem update_unwritten (unwritten : .write ∉ node.updateLocks omnipaxos)
    (returned : node.updateLeader omnipaxos = some (after, replays)) :
    core after = core node := by
  cases update_cases returned with
  | unnamed | noted => rfl
  | demoted named different recorded =>
    have current : (node.omniDurability omnipaxos).getCurrentLeader = _ := named
    simp [Node.updateLocks, recorded, current, Ne.symm different] at unwritten
  | promoted named different recorded applied =>
    have current : (node.omniDurability omnipaxos).getCurrentLeader = _ := named
    simp only [Node.updateLocks, recorded, current, if_neg different, if_true] at unwritten
    rw [← recorded] at unwritten
    have same := apply_unwritten unwritten applied
    exact same

end
end OmniSpacetimeDb.Proofs.NodeOperations
