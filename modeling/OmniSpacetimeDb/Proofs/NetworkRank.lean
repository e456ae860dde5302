import OmniSpacetimeDb.Proofs.NetworkNodes
import Mathlib.Algebra.Order.BigOperators.Group.Finset
import Mathlib.Algebra.Order.Monoid.Prod
import Mathlib.Data.Prod.Lex

/-! How much is left to each runner of the iteration it is in. Its own steps make
it less, those of others do not add to it, and a runner that was stopped starts no
other iteration. -/

namespace OmniSpacetimeDb.Proofs.NetworkRank
open Foundations Datastore Durability Cluster NetworkTraffic NetworkDelivery NetworkTopology
  NetworkStalls NetworkNodes
variable {σ Msg : Type}

/-- The calls that the iteration still makes before it has its messages, and then
the steps that these take. How many messages there will be is not known before. -/
def work : Phase Msg → Nat ×ₗ Nat
  | .selecting => toLex (4, 0)
  | .polling => toLex (3, 0)
  | .updated => toLex (2, 0)
  | .applied => toLex (1, 0)
  | .awaiting _ _ outMessages => toLex (0, 2 * outMessages.length + 4)
  | .sending outMessages => toLex (0, 2 * outMessages.length + 3)
  | .received _ => toLex (0, 4)
  | .ticking | .counted _ | .starting => toLex (0, 3)
  | .checking => toLex (0, 2)
  | .leaving => toLex (0, 1)
  | .ended | .panicked => toLex (0, 0)

def share (network : Network σ Msg) (nodeId : NodeId) : Nat ×ₗ Nat :=
  match network.runners.lookup nodeId with
  | some runner => work runner.phase
  | none => 0

def left (network : Network σ Msg) : Nat ×ₗ Nat := ∑ nodeId ∈ network.runners.keys, share network nodeId

/-- Every node has been stopped. -/
def Stopped (network : Network σ Msg) : Prop :=
  ∀ nodeId runner, network.runners.lookup nodeId = some runner → runner.isRunning = false

theorem calls_fall {first second : Nat} (fewer : first < second) (sends others : Nat) :
    (toLex (first, sends) : Nat ×ₗ Nat) < toLex (second, others) := Prod.Lex.toLex_lt_toLex.mpr (.inl fewer)

theorem sends_fall {first second : Nat} (fewer : first < second) :
    (toLex (0, first) : Nat ×ₗ Nat) < toLex (0, second) :=
  Prod.Lex.toLex_lt_toLex.mpr (.inr ⟨rfl, fewer⟩)

section Runners
variable [BuildProfile] {protocol : Protocol σ Msg} {event : Network.Event} {nodeId : NodeId}
  {runner changed : Runner σ Msg}

/-- The runner will not start another iteration with its next step. -/
def Ends (runner : Runner σ Msg) : Prop := runner.phase = .checking → runner.isRunning = false

/-- Every step of a task is one less, as long as it starts no other iteration. -/
theorem task_falls {action : RunnerAction} (ends : Ends runner)
    (step : RunnerStep protocol runner action changed)
    (task : Network.Event.mover (.runner nodeId action) = some nodeId) :
    work changed.phase < work runner.phase := by
  cases step with
  | stop | commit => cases task
  | start starting =>
    rw [starting]
    exact sends_fall (Nat.lt_succ_self 2)
  | check checking =>
    rw [checking, ends checking]
    exact sends_fall Nat.one_lt_two
  | leave leaving =>
    rw [leaving]
    exact sends_fall Nat.zero_lt_one
  | tickInterval selecting | receive selecting =>
    rw [selecting]
    exact calls_fall (Nat.succ_pos 3) _ _
  | msgHandlingInterval selecting =>
    rw [selecting]
    exact calls_fall (Nat.lt_succ_self 3) _ _
  | look sends =>
    rw [sends]
    exact sends_fall (Nat.lt_succ_self _)
  | skip sends =>
    rw [sends]
    exact sends_fall (by rw [List.length_cons]; omega)
  | finish sends =>
    rw [sends]
    exact sends_fall (Nat.lt_succ_self 2)
  | panicked called =>
    rcases call_phase called with phase | phase | phase | phase | ⟨_, phase⟩ | ⟨_, phase⟩ <;> rw [phase]
    case inr.inl | inr.inr.inl | inr.inr.inr.inl => exact calls_fall (Nat.succ_pos _) _ _
    all_goals exact sends_fall (Nat.succ_pos _)
  | called called =>
    cases call_cases called with
    | counted phase =>
      rw [phase]
      exact sends_fall (Nat.lt_succ_self 3)
    | ticked phase | handled phase =>
      rw [phase]
      exact sends_fall (Nat.lt_succ_self 2)
    | updated phase =>
      rw [phase]
      exact calls_fall (Nat.lt_succ_self 2) _ _
    | applied phase =>
      rw [phase]
      exact calls_fall (Nat.lt_succ_self 1) _ _
    | took phase =>
      rw [phase]
      exact calls_fall Nat.zero_lt_one _ _

omit [BuildProfile] in
theorem sent_falls {channel : Sender} {message : Msg} {outMessages : List Msg}
    (awaits : runner.phase = .awaiting channel message outMessages) :
    work (runner.sent outMessages).phase < work runner.phase := by
  rw [awaits]
  exact sends_fall (Nat.lt_succ_self _)

/-- Nothing else that happens to a runner gives it more to do. -/
theorem changes_lower (ends : Ends runner) (changes : Changes protocol event nodeId runner changed) :
    work changed.phase ≤ work runner.phase := by
  cases changes with
  | @task _ action _ _ step =>
    cases action with
    | stop =>
      cases step with
      | stop => exact le_refl _
      | called called | panicked called => cases called
    | commit =>
      cases step with
      | commit => exact le_refl _
      | called called | panicked called => cases called
    | start | check | tickInterval | tick | msgHandlingInterval | updateLeader | applyReplicatedTxns | take
    | look | finish | receive | count | handle | leave =>
      exact le_of_lt (@task_falls _ _ _ _ nodeId _ _ _ ends step rfl)
  | sent awaits => exact le_of_lt (sent_falls awaits)
  | accepted => exact le_refl _
  | stroke stroke =>
    rw [stroke_frame]

end Runners

section Steps
variable [BuildProfile] {protocol : Protocol σ Msg} {network after : Network σ Msg} {event : Network.Event}

omit [BuildProfile] in
theorem share_eq {nodeId : NodeId} {runner : Runner σ Msg}
    (found : network.runners.lookup nodeId = some runner) :
    share network nodeId = work runner.phase := by
  rw [share, found]

theorem keys_kept (moves : Network.Moves protocol network event after) :
    after.runners.keys = network.runners.keys := by
  apply Finset.ext
  intro nodeId
  rw [Finmap.mem_keys, Finmap.mem_keys]
  exact moves_nodes moves nodeId

theorem moves_lower (stopped : Stopped network) (moves : Network.Moves protocol network event after) :
    Stopped after ∧ ∀ nodeId, share after nodeId ≤ share network nodeId := by
  have lower : ∀ nodeId changed, after.runners.lookup nodeId = some changed →
      changed.isRunning = false ∧ work changed.phase ≤ share network nodeId := by
    refine moves_keep _ ?_ ?_ moves
    · intro nodeId runner found
      exact ⟨stopped nodeId runner found, le_of_eq (share_eq found).symm⟩
    · intro nodeId runner changed held changes
      exact ⟨(winds_down held.1 changes).stopped, le_trans (changes_lower (fun _ => held.1) changes) held.2⟩
  refine ⟨fun nodeId runner found => (lower nodeId runner found).1, ?_⟩
  intro nodeId
  cases found : after.runners.lookup nodeId with
  | none =>
    rw [share, found]
    exact bot_le
  | some runner =>
    rw [share_eq found]
    exact (lower nodeId runner found).2

/-- The node whose task moves has less to do. -/
theorem mover_falls {nodeId : NodeId} {runner : Runner σ Msg}
    (found : network.runners.lookup nodeId = some runner) (ends : Ends runner)
    (moves : Network.Moves protocol network event after) (moved : event.mover = some nodeId) :
    share after nodeId < share network nodeId := by
  rw [share_eq found]
  cases moves with
  | @runner other action before changed known step =>
    obtain rfl : other = nodeId := by
      cases action <;> cases moved <;> rfl
    obtain rfl := Option.some.inj (known.symm.trans found)
    rw [share_eq (set_self _ _ _)]
    exact task_falls ends step moved
  | @delivered other before receiver channel message outMessages known awaits receives live room =>
    obtain rfl := Option.some.inj moved
    obtain rfl := Option.some.inj (known.symm.trans found)
    by_cases self : channel = other
    · subst self
      rw [set_self] at receives
      cases receives
      rw [share_eq (set_self _ _ _)]
      exact sent_falls awaits
    · rw [share_eq (set_elsewhere _ (Ne.symm self) (set_self _ _ _))]
      exact sent_falls awaits
  | lost known awaits =>
    obtain rfl := Option.some.inj moved
    obtain rfl := Option.some.inj (known.symm.trans found)
    rw [share_eq (set_self _ _ _)]
    exact sent_falls awaits
  | deleteConnections | reconnectNodes | stroke => cases moved

/-- The node whose task moves is one of the network. -/
theorem mover_known {nodeId : NodeId} (moves : Network.Moves protocol network event after)
    (moved : event.mover = some nodeId) :
    ∃ runner, network.runners.lookup nodeId = some runner := by
  cases moves with
  | @runner other action before changed known =>
    obtain rfl : other = nodeId := by
      cases action <;> cases moved <;> rfl
    exact ⟨_, known⟩
  | delivered known | lost known =>
    obtain rfl := Option.some.inj moved
    exact ⟨_, known⟩
  | deleteConnections | reconnectNodes | stroke => cases moved

theorem left_lowers (stopped : Stopped network) (moves : Network.Moves protocol network event after) :
    left after ≤ left network := by
  rw [left, keys_kept moves]
  exact Finset.sum_le_sum fun nodeId _ => (moves_lower stopped moves).2 nodeId

theorem left_falls {nodeId : NodeId} (stopped : Stopped network)
    (moves : Network.Moves protocol network event after) (moved : event.mover = some nodeId) :
    left after < left network := by
  obtain ⟨runner, found⟩ := mover_known moves moved
  rw [left, keys_kept moves]
  refine Finset.sum_lt_sum (fun nodeId _ => (moves_lower stopped moves).2 nodeId) ⟨nodeId, ?_, ?_⟩
  · exact Finmap.mem_keys.mpr (Finmap.mem_of_lookup_eq_some found)
  · exact mover_falls found (fun _ => stopped nodeId runner found) moves moved

end Steps

end OmniSpacetimeDb.Proofs.NetworkRank
