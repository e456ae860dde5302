import OmniSpacetimeDb.Proofs.NodePoll
import OmniSpacetimeDb.Cluster.Server

/-! The applied index of a node and the replicated offset of its store. Each call
that moves one moves the other before it returns; under the contract of OmniPaxos
both only go up, and stay below the decided index. -/

namespace OmniSpacetimeDb.Proofs.Watermark
open Foundations Datastore Durability OmniPaxosDurability Cluster Store
  StoreRefinement LogIteration NodePoll

def Coupled (node : Node) : Prop := node.lastAppliedIndex = node.datastore.getReplicatedOffset

def Below (node : Node) (log : List DatabaseLogEntry) : Prop :=
  ∀ index, node.lastAppliedIndex = some index → index < log.length

def Grows (node after : Node) : Prop :=
  ∀ index, node.lastAppliedIndex = some index → ∃ later, after.lastAppliedIndex = some later ∧ index ≤ later

theorem Grows.refl (node : Node) : Grows node node := fun index marked => ⟨index, marked, Nat.le_refl index⟩

section Node
variable [BuildProfile] {node after : Node} {omnipaxos : OmniPaxos} {replays : List Replay}

/-- The advance that follows a replay sets the offset, whatever the replay did to it. -/
theorem coupled_transactions {transactions : List (Nat × TxData)} (coupled : Coupled node)
    (applied : node.applyTransactions transactions = some (after, replays)) : Coupled after := by
  induction transactions generalizing node replays with
  | nil =>
    cases applied
    exact coupled
  | cons transaction transactions ih =>
    obtain ⟨⟨middle, replay⟩, first, rest⟩ := Option.bind_eq_some_iff.mp applied
    obtain ⟨⟨last, others⟩, tail, made⟩ := Option.bind_eq_some_iff.mp rest
    obtain ⟨⟨state, result⟩, _, moved⟩ := Option.bind_eq_some_iff.mp first
    cases made
    cases moved
    apply ih _ tail
    exact rfl

theorem coupled_apply (coupled : Coupled node)
    (returned : node.applyReplicatedTxns omnipaxos = some (after, replays)) :
    Coupled after := by
  cases apply_took returned with
  | nothing => exact coupled
  | memory => exact rfl
  | entries _ _ _ applied =>
    have moved := coupled_transactions coupled applied
    exact moved

theorem coupled_update (coupled : Coupled node)
    (returned : node.updateLeader omnipaxos = some (after, replays)) : Coupled after := by
  cases update_cases returned with
  | unnamed | noted | demoted => exact coupled
  | promoted _ _ _ applied =>
    apply coupled_apply _ applied
    exact coupled

/-- A call that takes no lock of the store leaves both marks where they are. -/
theorem apply_unlocked (unlocked : node.applyLocks omnipaxos = [])
    (returned : node.applyReplicatedTxns omnipaxos = some (after, replays)) :
    core after = core node := by
  rw [Node.applyLocks] at unlocked
  cases leader : (node.omniDurability omnipaxos).isLeader with
  | true =>
    cases apply_took returned with
    | nothing => rfl
    | memory busy | entries busy =>
      rw [busy, if_neg Bool.false_ne_true, leader, if_pos rfl] at unlocked
      split at unlocked <;> cases unlocked
  | false =>
    cases apply_took returned with
    | nothing => rfl
    | memory _ mode =>
      rw [Node.takesFromMemory, leader] at mode
      cases mode
    | @entries transactions middle others busy _ iterated applied =>
      simp only [busy, leader, iterated, Bool.false_eq_true, if_false] at unlocked
      cases transactions with
      | nil =>
        cases applied
        rfl
      | cons => cases unlocked

theorem update_unlocked (unlocked : node.updateLocks omnipaxos = [])
    (returned : node.updateLeader omnipaxos = some (after, replays)) :
    core after = core node := by
  cases update_cases returned with
  | unnamed | noted => rfl
  | demoted named different recorded =>
    have current : (node.omniDurability omnipaxos).getCurrentLeader = _ := named
    simp only [Node.updateLocks, recorded, current, if_neg (Ne.symm different), if_true] at unlocked
    cases unlocked
  | promoted named different recorded applied =>
    have current : (node.omniDurability omnipaxos).getCurrentLeader = _ := named
    simp only [Node.updateLocks, recorded, current, if_neg different, if_true] at unlocked
    rw [← recorded] at unlocked
    have same := apply_unlocked unlocked applied
    exact same

variable {log : List DatabaseLogEntry} (decides : omnipaxos.Decides log) (positioned : Positioned log)
include decides positioned

theorem apply_below (below : Below node log)
    (returned : node.applyReplicatedTxns omnipaxos = some (after, replays)) :
    Below after log ∧ Grows node after := by
  rcases apply_cases decides returned with rfl | ⟨_, applied⟩
  · exact ⟨below, Grows.refl after⟩
  · exact ⟨applied.below positioned below, fun _ => applied.grows positioned below⟩

theorem update_below (below : Below node log)
    (returned : node.updateLeader omnipaxos = some (after, replays)) :
    Below after log ∧ Grows node after := by
  cases update_cases returned with
  | unnamed | noted | demoted => exact ⟨below, Grows.refl node⟩
  | promoted _ _ _ applied =>
    have promoted : Below { node with gotPromotedLeader := true } log := below
    have moved := apply_below decides positioned promoted applied
    exact moved

end Node

def mutTx? : Client → Option MutTx
  | .writing tx | .committing tx => some tx
  | .idle | .reading _ | .releasing _ => none

theorem holds_of_mutTx {client : Client} {tx : MutTx} (found : mutTx? client = some tx) :
    client.holds = some .write := by
  cases client with
  | writing | committing => rfl
  | idle | reading | releasing => cases found

theorem call_state {tx after : MutTx} {call : Call} (returned : tx.call call = some after) :
    after.committedState = tx.committedState := by
  cases call with
  | get key =>
    obtain ⟨value, _, rfl⟩ := Option.map_eq_some_iff.mp returned
    rfl
  | set key value =>
    cases returned
    rfl
  | delete key =>
    obtain ⟨⟨old, next⟩, deleted, rfl⟩ := Option.map_eq_some_iff.mp returned
    rw [MutTx.delete] at deleted
    cases found : tx.diff.lookup key with
    | some diff =>
      rw [found] at deleted
      cases deleted
      rfl
    | none =>
      rw [found] at deleted
      obtain ⟨value, _, made⟩ := Option.bind_eq_some_iff.mp deleted
      cases made
      rfl

/-- An open transaction commits to a store with the offset that the node has applied. -/
structure Tied (server : Server) : Prop where
  coupled : Coupled server.node
  opened : ∀ client tx, mutTx? (server.clients client) = some tx →
    tx.committedState.replicatedTxOffset = server.node.lastAppliedIndex

theorem tied_new (nodeId : NodeId) : Tied (.new nodeId) := by
  refine ⟨rfl, ?_⟩
  intro client tx found
  cases found

/-- What OmniPaxos shows next: a positioned decided log, not shorter than before. -/
def Contract (server : Server) : Server.Event → Prop
  | .observe omnipaxos =>
    (∃ log, omnipaxos.Decides log ∧ Positioned log) ∧ server.omnipaxos.decidedIdx ≤ omnipaxos.decidedIdx
  | _ => True

structure Bounded (server : Server) : Prop where
  contract : ∃ log, server.omnipaxos.Decides log ∧ Positioned log
  below : ∀ index, server.node.lastAppliedIndex = some index → index < server.omnipaxos.decidedIdx

theorem bounded_new (nodeId : NodeId) : Bounded (.new nodeId) := by
  refine ⟨⟨[], ofLog_decides none (Nat.zero_le 0), positioned_nil⟩, ?_⟩
  intro index applied
  cases applied

/-- A commit that returns changes nothing but the store. -/
theorem commit_stores {node after : Node} {omnipaxos : OmniPaxos} {tx : MutTx}
    {order : Entries String Diff} {result : TxResult} {entry : DatabaseLogEntry}
    (returned : node.commitMutTx omnipaxos tx order = .ok (result, entry, after)) :
    after = { node with datastore := (commitMutTx tx order).2 } := by
  rw [Node.commitMutTx] at returned
  split at returned
  · cases returned
    rfl
  · cases returned

section Server
variable {server after : Server} {request : Request} {client : ClientId} {state : Client}

theorem Tied.setClient (tied : Tied server)
    (fits : ∀ tx, mutTx? state = some tx →
      tx.committedState.replicatedTxOffset = server.node.lastAppliedIndex) :
    Tied (server.setClient client state) := by
  refine ⟨tied.coupled, ?_⟩
  intro other tx found
  by_cases same : other = client
  · subst other
    simp only [Server.setClient, Function.update_self] at found
    exact fits tx found
  · simp only [Server.setClient, Function.update_of_ne same] at found
    exact tied.opened other tx found

theorem unlocked_or_unopened (granted : ¬ server.Blocked request) :
    server.locks request = [] ∨ ∀ client, mutTx? (server.clients client) = none := by
  rw [Classical.or_iff_not_imp_left]
  intro locked client
  obtain ⟨mode, taken⟩ := List.exists_mem_of_ne_nil _ locked
  cases found : mutTx? (server.clients client) with
  | none => rfl
  | some tx => exact absurd ⟨client, .write, mode, holds_of_mutTx found, taken, rfl⟩ granted

theorem Tied.setNode (tied : Tied server) {node : Node} (coupled : Coupled node)
    (granted : ¬ server.Blocked request)
    (unlocked : server.locks request = [] → core node = core server.node) :
    Tied (server.setNode node) := by
  refine ⟨coupled, ?_⟩
  intro client tx found
  rcases unlocked_or_unopened granted with empty | none
  · have same := congrArg Prod.snd (unlocked empty)
    exact (tied.opened client tx found).trans same.symm
  · exact absurd ((none client).symm.trans found) (Option.some_ne_none tx).symm

variable [BuildProfile]

theorem Tied.serve (tied : Tied server) (granted : ¬ server.Blocked request)
    (returned : server.serve request = some after) :
    Tied after := by
  cases request with
  | beginTx client durabilityLevel =>
    cases returned
    exact tied.setClient fun tx found => by cases found
  | beginMutTx client =>
    simp only [Server.serve, Node.beginMutTx] at returned
    cases leader : (server.node.omniDurability server.omnipaxos).isLeader with
    | true =>
      simp only [leader, if_true] at returned
      cases returned
      apply tied.setClient
      intro tx found
      cases found
      exact tied.coupled.symm
    | false =>
      simp only [leader, Bool.false_eq_true, if_false] at returned
      cases returned
      exact tied
  | updateLeader =>
    obtain ⟨⟨node, replays⟩, updated, rfl⟩ := Option.map_eq_some_iff.mp returned
    exact tied.setNode (coupled_update tied.coupled updated) granted fun unlocked =>
      update_unlocked unlocked updated
  | applyReplicatedTxns =>
    obtain ⟨⟨node, replays⟩, applied, rfl⟩ := Option.map_eq_some_iff.mp returned
    exact tied.setNode (coupled_apply tied.coupled applied) granted fun unlocked =>
      apply_unlocked unlocked applied

theorem tied_step {event : Server.Event} (tied : Tied server) (moves : Server.Moves server event after) :
    Tied after := by
  cases moves with
  | observe | waits => exact ⟨tied.coupled, tied.opened⟩
  | read => exact tied
  | served _ _ granted returned => exact tied.serve granted returned
  | resumed _ granted returned =>
    obtain ⟨coupled, opened⟩ := tied.serve granted returned
    exact ⟨coupled, opened⟩
  | @used client call tx next inside returned =>
    apply tied.setClient
    intro found same
    cases same
    rw [call_state returned]
    exact tied.opened client tx (by rw [inside]; rfl)
  | finishRead | dropped | released | refused => exact tied.setClient fun tx found => by cases found
  | @finishWrite client tx inside =>
    apply tied.setClient
    intro found same
    cases same
    exact tied.opened client tx (by rw [inside]; rfl)
  | @committed client tx order result entry node free inside visits returned =>
    -- The commit leaves the offset of the state that the transaction was opened on.
    have opened := tied.opened client tx (by rw [inside]; rfl)
    obtain rfl := commit_stores returned
    refine Tied.setClient ⟨opened.symm, tied.opened⟩ fun tx found => by cases found

theorem serve_bounded (bounded : Bounded server) (returned : server.serve request = some after) :
    Bounded after ∧ after.omnipaxos = server.omnipaxos ∧ Grows server.node after.node := by
  obtain ⟨log, decides, positioned⟩ := bounded.contract
  have length := decides.length
  have below := bounded.below
  rw [length] at below
  cases request with
  | beginTx client durabilityLevel =>
    cases returned
    exact ⟨⟨bounded.contract, bounded.below⟩, rfl, Grows.refl _⟩
  | beginMutTx client =>
    rw [Server.serve] at returned
    split at returned <;> cases returned
    · exact ⟨⟨bounded.contract, bounded.below⟩, rfl, Grows.refl _⟩
    · exact ⟨bounded, rfl, Grows.refl _⟩
  | updateLeader =>
    obtain ⟨⟨node, replays⟩, updated, rfl⟩ := Option.map_eq_some_iff.mp returned
    obtain ⟨within, grows⟩ := update_below decides positioned below updated
    exact ⟨⟨bounded.contract, length ▸ within⟩, rfl, grows⟩
  | applyReplicatedTxns =>
    obtain ⟨⟨node, replays⟩, applied, rfl⟩ := Option.map_eq_some_iff.mp returned
    obtain ⟨within, grows⟩ := apply_below decides positioned below applied
    exact ⟨⟨bounded.contract, length ▸ within⟩, rfl, grows⟩

theorem bounded_step {event : Server.Event} (bounded : Bounded server)
    (step : Guarded Contract Server.Moves server event after) :
    Bounded after ∧ Grows server.node after.node := by
  obtain ⟨contract, moves⟩ := step
  cases moves with
  | observe omnipaxos free =>
    refine ⟨⟨contract.1, ?_⟩, Grows.refl _⟩
    exact fun index applied => Nat.lt_of_lt_of_le (bounded.below index applied) contract.2
  | served _ _ _ returned =>
    obtain ⟨within, _, grows⟩ := serve_bounded bounded returned
    exact ⟨within, grows⟩
  | resumed _ _ returned =>
    obtain ⟨within, _, grows⟩ := serve_bounded bounded returned
    exact ⟨⟨within.contract, within.below⟩, grows⟩
  | read => exact ⟨bounded, Grows.refl _⟩
  | waits | used | finishRead | finishWrite | dropped | released | refused =>
    exact ⟨⟨bounded.contract, bounded.below⟩, Grows.refl _⟩
  | committed _ _ _ returned =>
    obtain rfl := commit_stores returned
    exact ⟨⟨bounded.contract, bounded.below⟩, Grows.refl _⟩

theorem bounded_run {events : List Server.Event} {later : Server} (bounded : Bounded server)
    (run : Run (Guarded Contract Server.Moves) server events later) :
    Bounded later ∧ Grows server.node later.node := by
  exact run.climbs Nat.le_refl (fun _ _ _ => Nat.le_trans) Bounded bounded fun _ _ _ => bounded_step

/-- The node and its store agree on what is replicated in every run. Under the
contract of OmniPaxos that mark never goes down and stays below the decided index. -/
theorem watermarks_coupled (nodeId : NodeId) :
    (∀ events server, Run Server.Moves (.new nodeId) events server →
      server.node.lastAppliedIndex = server.node.datastore.getReplicatedOffset) ∧
    ∀ events server, Run (Guarded Contract Server.Moves) (.new nodeId) events server →
      (∀ index, server.node.lastAppliedIndex = some index → index < server.omnipaxos.decidedIdx) ∧
      ∀ more later, Run (Guarded Contract Server.Moves) server more later →
        ∀ index, server.node.lastAppliedIndex = some index →
        ∃ reached, later.node.lastAppliedIndex = some reached ∧ index ≤ reached := by
  refine ⟨?_, ?_⟩
  · intro events server run
    exact (run.invariant Tied (tied_new nodeId) fun _ _ _ tied moves => tied_step tied moves).coupled
  · intro events server run
    have bounded := (bounded_run (bounded_new nodeId) run).1
    exact ⟨bounded.below, fun more later further => (bounded_run bounded further).2⟩

end Server

theorem free_of_idle {server : Server} (idle : ∀ client, server.clients client = .idle)
    (request : Request) : ¬ server.Blocked request := by
  rintro ⟨client, held, mode, holds, _⟩
  rw [idle client] at holds
  cases holds

/-- The decided part of a log of two commits, as a node that leads sees it. -/
def decidedOf (count : Nat) : OmniPaxos := .ofLog (some 1) (logOf [put "a" "1", put "b" "2"]) count

theorem watermarks_coupled_two_entries : ∃ server,
    Run (Guarded Contract (@Server.Moves ⟨true⟩)) (.new 1)
      [.observe (decidedOf 1), .call .applyReplicatedTxns,
      .observe (decidedOf 2), .call .applyReplicatedTxns] server ∧
    server.node.datastore.getReplicatedOffset = some 1 ∧ 1 < server.omnipaxos.decidedIdx := by
  let : BuildProfile := ⟨true⟩
  have positioned := logOf_positioned [put "a" "1", put "b" "2"]
  have shown {server : Server} {count : Nat} (within : count ≤ 2)
      (grows : server.omnipaxos.decidedIdx ≤ count) :
      Contract server (.observe (decidedOf count)) :=
    ⟨⟨_, ofLog_decides (some 1) within, positioned.take count⟩, grows⟩
  have run : Run (Guarded Contract Server.Moves) (.new 1)
      ([] ++ [.observe (decidedOf 1)] ++ [.call .applyReplicatedTxns] ++
      [.observe (decidedOf 2)] ++ [.call .applyReplicatedTxns]) _ :=
    (((Run.nil.snoc ⟨shown (by decide) (by decide), .observe (decidedOf 1) rfl⟩).snoc
      ⟨trivial, .served rfl trivial (free_of_idle (fun _ => rfl) _) rfl⟩).snoc
      ⟨shown (by decide) (by exact Nat.le_succ 1), .observe (decidedOf 2) rfl⟩).snoc
      ⟨trivial, .served rfl trivial (free_of_idle (fun _ => rfl) _) rfl⟩
  obtain ⟨coupled, bounded⟩ := watermarks_coupled 1
  refine ⟨_, run, ?_, (bounded _ _ run).1 1 rfl⟩
  rw [← coupled _ _ run.unguarded]
  rfl

end OmniSpacetimeDb.Proofs.Watermark
