import OmniSpacetimeDb.Proofs.NetworkDelivery
import OmniSpacetimeDb.Proofs.ClusterInvariant

/-! The network over OmniPaxos replicas that keep their contract. The replicas move
by themselves beside the network, and take the entries that it hands over; with
its nodes beside them they go through a run of the cluster. -/

namespace OmniSpacetimeDb.Proofs.NetworkCluster
open Foundations Datastore Durability Cluster Store StoreRefinement NodePoll ClusterInvariant
  NetworkTraffic NetworkDelivery
variable {σ Msg : Type}

def internal : Action → Bool
  | .elect _ | .adopt _ _ | .decide _ | .learn _ => true
  | .commit _ | .updateLeader | .applyReplicatedTxns => false

def handOver (paxos : ClusterState) (nodeId : NodeId) (item : Item) : ClusterState where
  replicas := Function.update paxos.replicas nodeId
    { paxos.replicas nodeId with log := (paxos.replicas nodeId).log ++ [item] }
  decided := paxos.decided
  nextId := paxos.nextId + 1

section Contract
variable [BuildProfile] (protocol : Protocol σ Msg)

/-- OmniPaxos by itself: no node moves. -/
def Internal : ClusterState → NodeId × Action → ClusterState → Prop :=
  Guarded (fun _ event => internal event.2 = true) Step

/-- What the runners read of OmniPaxos is what these replicas hold. -/
def Shows (network : Network σ Msg) (paxos : ClusterState) : Prop :=
  ∀ nodeId runner, network.runners.lookup nodeId = some runner →
    protocol.omnipaxos runner.omniDurability = (paxos.replicas nodeId).omnipaxos

/-- The poll of the cluster that an action of the task is. -/
def pollOf : RunnerAction → Option Action
  | .updateLeader => some .updateLeader
  | .applyReplicatedTxns => some .applyReplicatedTxns
  | .stop | .commit _ | .start | .check | .tickInterval | .tick | .msgHandlingInterval | .take | .look
  | .finish | .receive | .count | .handle | .leave => none

/-- What the node does in an event. A commit that it accepts is handed over as the
next entry of its replica, a poll counts when it returns, and the rest is none of
the cluster's. -/
inductive Hands (network : Network σ Msg) (paxos : ClusterState) :
    Network.Event → List (NodeId × Action) → ClusterState → Prop
  | entry {nodeId : NodeId} {runner : Runner σ Msg} {tx : ClientTx} {result : TxResult}
      {entry : DatabaseLogEntry} {node : Node} (found : network.runners.lookup nodeId = some runner)
      (returned : runner.node.execute (protocol.omnipaxos runner.omniDurability) tx =
        some (.ok (result, entry, node))) :
      Hands network paxos (.runner nodeId (.commit tx)) [(nodeId, .commit tx)]
        (handOver paxos nodeId ⟨paxos.nextId, tx, entry⟩)
  | polled {nodeId : NodeId} {action : RunnerAction} {poll : Action} {runner after : Runner σ Msg}
      (asks : pollOf action = some poll) (found : network.runners.lookup nodeId = some runner)
      (returned : runner.call protocol action = some (some after)) :
      Hands network paxos (.runner nodeId action) [(nodeId, poll)] paxos
  | panicked {nodeId : NodeId} {action : RunnerAction} {poll : Action} {runner : Runner σ Msg}
      (asks : pollOf action = some poll) (found : network.runners.lookup nodeId = some runner)
      (panics : runner.call protocol action = some none) :
      Hands network paxos (.runner nodeId action) [] paxos
  | nothing {event : Network.Event} (idle : event.usesStore = false) : Hands network paxos event [] paxos

/-- A move of the network that keeps the contract of OmniPaxos. It is listed with
what it is to the cluster: what the node does, and then what OmniPaxos does by itself. -/
structure Kept (before : Network σ Msg × ClusterState) (label : Network.Event × List (NodeId × Action))
    (after : Network σ Msg × ClusterState) : Prop where
  moves : Network.Moves protocol before.1 label.1 after.1
  follows : ∃ called handed inner, Hands protocol before.1 before.2 label.1 called handed ∧
    Run Internal handed inner after.2 ∧ label.2 = called ++ inner
  shows : Shows protocol after.1 after.2

end Contract

structure SameLog (replica other : Replica) : Prop where
  log : other.log = replica.log
  decidedIdx : other.decidedIdx = replica.decidedIdx
  currentLeader : other.currentLeader = replica.currentLeader

/-- The same replicas of OmniPaxos, whatever their nodes are. -/
structure Same (paxos cluster : ClusterState) : Prop where
  replicas : ∀ nodeId, SameLog (paxos.replicas nodeId) (cluster.replicas nodeId)
  decided : cluster.decided = paxos.decided
  nextId : cluster.nextId = paxos.nextId

theorem SameLog.omnipaxos {replica other : Replica} (same : SameLog replica other) :
    other.omnipaxos = replica.omnipaxos := by
  rw [Replica.omnipaxos, same.log, same.decidedIdx, same.currentLeader, ← Replica.omnipaxos]

theorem SameLog.decidedLog {replica other : Replica} (same : SameLog replica other) :
    other.decidedLog = replica.decidedLog := by
  rw [Replica.decidedLog, same.log, same.decidedIdx, ← Replica.decidedLog]

def commitsOf (nodeId : NodeId) (events : List Network.Event) : List ClientTx :=
  events.filterMap fun event => match event with
  | .runner other (.commit tx) => if other = nodeId then some tx else none
  | _ => none

section Lift
variable {paxos after cluster : ClusterState}

theorem Same.record {nodeId : NodeId} {action : Action} {moved : Replica} (same : Same paxos cluster)
    (elsewhere : ∀ other, other ≠ nodeId → after.replicas other = paxos.replicas other)
    (log : SameLog (after.replicas nodeId) moved)
    (decided : (cluster.record nodeId action moved).decided = after.decided)
    (nextId : (cluster.record nodeId action moved).nextId = after.nextId) :
    Same after (cluster.record nodeId action moved) := by
  refine ⟨?_, decided, nextId⟩
  intro other
  by_cases here : other = nodeId
  · subst here
    rw [cluster.record_self]
    exact log
  · rw [cluster.record_elsewhere action moved here, elsewhere other here]
    exact same.replicas other

variable [BuildProfile]

/-- What OmniPaxos does by itself it does beside any nodes. -/
theorem lift_internal {event : NodeId × Action} (same : Same paxos cluster)
    (moves : Internal paxos event after) :
    ∃ next, Step cluster event next ∧ Same after next ∧
      ∀ nodeId, (next.replicas nodeId).node = (cluster.replicas nodeId).node ∧
      (next.replicas nodeId).accepted = (cluster.replicas nodeId).accepted := by
  obtain ⟨inside, taken⟩ := moves
  cases taken with
  | @mk nodeId action moved moves =>
    have lift {lifted : Replica} (step : ReplicaStep cluster (cluster.replicas nodeId) action lifted)
        (log : SameLog moved lifted)
        (decided : (cluster.record nodeId action lifted).decided =
        (paxos.record nodeId action moved).decided)
        (nextId : (cluster.record nodeId action lifted).nextId = (paxos.record nodeId action moved).nextId)
        (node : lifted.node = (cluster.replicas nodeId).node)
        (accepted : lifted.accepted = (cluster.replicas nodeId).accepted) :
        ∃ next, Step cluster (nodeId, action) next ∧ Same (paxos.record nodeId action moved) next ∧
          ∀ nodeId, (next.replicas nodeId).node = (cluster.replicas nodeId).node ∧
            (next.replicas nodeId).accepted = (cluster.replicas nodeId).accepted := by
      refine ⟨_, .mk step, same.record
        (fun other => paxos.record_elsewhere action moved) ?_ decided nextId, ?_⟩
      · rw [paxos.record_self]
        exact log
      · intro other
        by_cases here : other = nodeId
        · subst here
          rw [cluster.record_self]
          exact ⟨node, accepted⟩
        · rw [cluster.record_elsewhere action lifted here]
          exact ⟨rfl, rfl⟩
    obtain ⟨log, decidedIdx, currentLeader⟩ := same.replicas nodeId
    have decidedLog := (same.replicas nodeId).decidedLog
    cases moves with
    | elect leader => exact lift (.elect leader) ⟨log, decidedIdx, rfl⟩ same.decided same.nextId rfl rfl
    | @adopt other length keeps =>
      have held : (cluster.replicas other).log = (paxos.replicas other).log := (same.replicas other).log
      rw [← held, ← decidedIdx, ← decidedLog] at keeps
      exact lift (.adopt keeps) ⟨by rw [held], decidedIdx, currentLeader⟩ same.decided same.nextId rfl rfl
    | decide grows within continues =>
      rw [← decidedIdx] at grows
      rw [← log] at within continues
      rw [← same.decided] at continues
      exact lift (.decide grows within continues) ⟨log, rfl, currentLeader⟩ (by
        simp only [ClusterState.record, Replica.decidedLog, log]) same.nextId rfl rfl
    | learn grows within known =>
      rw [← decidedIdx] at grows
      rw [← log] at within known
      rw [← same.decided] at known
      exact lift (.learn grows within known) ⟨log, rfl, currentLeader⟩ same.decided same.nextId rfl rfl
    | commit | updateLeader | applyReplicatedTxns => cases inside

theorem lift_run {events : List (NodeId × Action)} (same : Same paxos cluster)
    (run : Run Internal paxos events after) :
    ∃ next, Run Step cluster events next ∧ Same after next ∧
      ∀ nodeId, (next.replicas nodeId).node = (cluster.replicas nodeId).node ∧
        (next.replicas nodeId).accepted = (cluster.replicas nodeId).accepted := by
  rw [← List.flatMap_singleton' events]
  refine run.translate (fun event => [event]) (fun _ before next => Same before next ∧
    ∀ nodeId, (next.replicas nodeId).node = (cluster.replicas nodeId).node ∧
      (next.replicas nodeId).accepted = (cluster.replicas nodeId).accepted) ⟨same, fun _ => ⟨rfl, rfl⟩⟩ ?_
  rintro _ before event final middle ⟨same, kept⟩ moves
  obtain ⟨next, step, later, unchanged⟩ := lift_internal same moves
  refine ⟨next, Run.nil.snoc step, later, ?_⟩
  intro nodeId
  rw [(unchanged nodeId).1, (unchanged nodeId).2]
  exact kept nodeId

end Lift

theorem commitsOf_snoc (nodeId : NodeId) (events : List Network.Event) (event : Network.Event) :
    commitsOf nodeId (events ++ [event]) = commitsOf nodeId events ++ commitsOf nodeId [event] :=
  List.filterMap_append

theorem commitsOf_idle {nodeId : NodeId} {event : Network.Event} (idle : event.usesStore = false) :
    commitsOf nodeId [event] = [] := by
  cases event with
  | runner other action => cases action <;> first | rfl | cases idle
  | deliver | deleteConnections | reconnectNodes | stroke => rfl

section Nodes
variable [BuildProfile] {protocol : Protocol σ Msg} {network after : Network σ Msg}
  {paxos handed cluster : ClusterState}

/-- The cluster has the nodes of the network, and they have accepted what these events committed. -/
structure Mirrors (protocol : Protocol σ Msg) (events : List Network.Event)
    (pair : Network σ Msg × ClusterState) (cluster : ClusterState) : Prop where
  shows : Shows protocol pair.1 pair.2
  same : Same pair.2 cluster
  nodes : ∀ nodeId runner, pair.1.runners.lookup nodeId = some runner →
    (cluster.replicas nodeId).node = runner.node
  accepted : ∀ nodeId, (cluster.replicas nodeId).accepted.map Item.tx = commitsOf nodeId events

theorem changes_node {event : Network.Event} {nodeId : NodeId} {runner changed : Runner σ Msg}
    (idle : event.usesStore = false) (changes : Changes protocol event nodeId runner changed) :
    changed.node = runner.node := by
  cases changes with
  | task step =>
    cases step with
    | stop | start | check | tickInterval | msgHandlingInterval | panicked | look | skip | finish | receive
    | leave => rfl
    | commit => cases idle
    | called called =>
      cases call_cases called with
      | ticked | took | counted | handled => rfl
      | updated | applied => cases idle
  | sent | accepted => rfl
  | stroke stroke =>
    rw [stroke_frame]

/-- What a move of the network leaves to OmniPaxos, which goes on from there. -/
def Lifted (cluster : ClusterState) (called : List (NodeId × Action)) (events : List Network.Event)
    (after : Network σ Msg) (handed : ClusterState) : Prop :=
  ∃ next, Run Step cluster called next ∧ Same handed next ∧
    (∀ nodeId runner, after.runners.lookup nodeId = some runner →
      (next.replicas nodeId).node = runner.node) ∧
    ∀ nodeId, (next.replicas nodeId).accepted.map Item.tx = commitsOf nodeId events

theorem lift_still {events : List Network.Event} {event : Network.Event}
    (mirrors : Mirrors protocol events (network, paxos) cluster)
    (none : ∀ nodeId, commitsOf nodeId [event] = [])
    (nodes : ∀ nodeId runner, after.runners.lookup nodeId = some runner →
      (cluster.replicas nodeId).node = runner.node) :
    Lifted cluster [] (events ++ [event]) after paxos := by
  refine ⟨cluster, .nil, mirrors.same, nodes, ?_⟩
  intro nodeId
  rw [commitsOf_snoc, none, List.append_nil]
  exact mirrors.accepted nodeId

theorem lift_idle {events : List Network.Event} {event : Network.Event}
    (mirrors : Mirrors protocol events (network, paxos) cluster) (idle : event.usesStore = false)
    (moves : Network.Moves protocol network event after) :
    Lifted cluster [] (events ++ [event]) after paxos := by
  apply lift_still mirrors fun _ => commitsOf_idle idle
  apply moves_keep (fun nodeId runner => (cluster.replicas nodeId).node = runner.node) mirrors.nodes _ moves
  intro nodeId runner changed held changes
  rw [held, changes_node idle changes]

theorem lift_call {events : List Network.Event} {event : Network.Event} {nodeId : NodeId}
    {action : Action} {moved : Replica} {runner : Runner σ Msg}
    (mirrors : Mirrors protocol events (network, paxos) cluster)
    (step : ReplicaStep cluster (cluster.replicas nodeId) action moved)
    (same : Same handed (cluster.record nodeId action moved)) (node : moved.node = runner.node)
    (accepted : ∀ other, ((cluster.record nodeId action moved).replicas other).accepted.map Item.tx =
      (cluster.replicas other).accepted.map Item.tx ++ commitsOf other [event]) :
    Lifted cluster [(nodeId, action)] (events ++ [event]) (network.set nodeId runner) handed := by
  refine ⟨_, Run.nil.snoc (.mk step), same, ?_, ?_⟩
  · intro other found known
    rw [lookup_set] at known
    split at known
    next here =>
      cases known
      rw [here, cluster.record_self]
      exact node
    next elsewhere =>
      rw [cluster.record_elsewhere action moved elsewhere]
      exact mirrors.nodes other found known
  · intro other
    rw [accepted, commitsOf_snoc, mirrors.accepted]

/-- A poll that returns leaves what the replica holds of OmniPaxos, and what it has accepted. -/
theorem lift_poll {events : List Network.Event} {nodeId : NodeId} {poll : RunnerAction}
    {action : Action} {node : Node} {unnoticed : Bool} {runner : Runner σ Msg}
    (mirrors : Mirrors protocol events (network, paxos) cluster)
    (polls : action = .updateLeader ∧ poll = .updateLeader ∨
      action = .applyReplicatedTxns ∧ poll = .applyReplicatedTxns)
    (step : ReplicaStep cluster (cluster.replicas nodeId) action
      { cluster.replicas nodeId with node, unnoticed })
    (same : node = runner.node) :
    Lifted cluster [(nodeId, action)] (events ++ [.runner nodeId poll])
      (network.set nodeId runner) paxos := by
  obtain ⟨log, decidedIdx, currentLeader⟩ := mirrors.same.replicas nodeId
  have recorded :
      Same paxos (cluster.record nodeId action { cluster.replicas nodeId with node, unnoticed }) := by
    rcases polls with ⟨rfl, _⟩ | ⟨rfl, _⟩ <;>
      exact mirrors.same.record (fun _ _ => rfl)
        ⟨log, decidedIdx, currentLeader⟩ mirrors.same.decided mirrors.same.nextId
  refine lift_call mirrors step recorded same ?_
  intro other
  have none : commitsOf other [.runner nodeId poll] = [] := by rcases polls with ⟨_, rfl⟩ | ⟨_, rfl⟩ <;> rfl
  rw [none, List.append_nil]
  by_cases here : other = nodeId
  · subst here
    rw [cluster.record_self]
  · rw [cluster.record_elsewhere action _ here]

theorem lift_commit {events : List Network.Event} {nodeId : NodeId} {tx : ClientTx} {result : TxResult}
    {entry : DatabaseLogEntry} {node : Node} {runner : Runner σ Msg}
    (mirrors : Mirrors protocol events (network, paxos) cluster)
    (returned : (cluster.replicas nodeId).node.execute (cluster.replicas nodeId).omnipaxos tx =
      some (.ok (result, entry, node)))
    (same : node = runner.node) :
    Lifted cluster [(nodeId, .commit tx)] (events ++ [.runner nodeId (.commit tx)])
      (network.set nodeId runner)
      (handOver paxos nodeId ⟨paxos.nextId, tx, entry⟩) := by
  obtain ⟨log, decidedIdx, currentLeader⟩ := mirrors.same.replicas nodeId
  refine lift_call mirrors (.commit returned) (mirrors.same.record ?_ ?_ mirrors.same.decided ?_) same ?_
  · exact fun other elsewhere => Function.update_of_ne elsewhere _ _
  · simp only [handOver, Function.update_self]
    exact ⟨by rw [log, mirrors.same.nextId], decidedIdx, currentLeader⟩
  · exact congrArg (· + 1) mirrors.same.nextId
  · intro other
    by_cases here : other = nodeId
    · subst here
      simp [commitsOf]
    · rw [cluster.record_elsewhere _ _ here]
      simp [commitsOf, Ne.symm here]

theorem lift_move {events : List Network.Event} {event : Network.Event}
    {called : List (NodeId × Action)} (mirrors : Mirrors protocol events (network, paxos) cluster)
    (moves : Network.Moves protocol network event after)
    (hands : Hands protocol network paxos event called handed) :
    Lifted cluster called (events ++ [event]) after handed := by
  have node {nodeId : NodeId} {runner : Runner σ Msg}
      (found : network.runners.lookup nodeId = some runner) :
      (cluster.replicas nodeId).node = runner.node := mirrors.nodes nodeId runner found
  have reads {nodeId : NodeId} {runner : Runner σ Msg}
      (found : network.runners.lookup nodeId = some runner) :
      (cluster.replicas nodeId).omnipaxos = protocol.omnipaxos runner.omniDurability :=
    (mirrors.same.replicas nodeId).omnipaxos.trans (mirrors.shows nodeId runner found).symm
  cases hands with
  | nothing idle => exact lift_idle mirrors idle moves
  | entry found returned =>
    have executed := returned
    rw [← node found, ← reads found] at executed
    cases moves with
    | runner known step =>
      obtain rfl := Option.some.inj (found.symm.trans known)
      cases step with
      | commit _ again =>
        cases returned.symm.trans again
        exact lift_commit mirrors executed rfl
      | called called | panicked called => cases called
  | polled asks found returns =>
    cases moves with
    | runner known step =>
      obtain rfl := Option.some.inj (found.symm.trans known)
      cases step with
      | panicked panics => cases returns.symm.trans panics
      | called again =>
        cases call_cases again with
        | ticked | took | counted | handled => cases asks
        | updated _ returned =>
          cases asks
          rw [← node found, ← reads found] at returned
          exact lift_poll mirrors (.inl ⟨rfl, rfl⟩) (.updateLeader returned) rfl
        | applied _ returned =>
          cases asks
          rw [← node found, ← reads found] at returned
          exact lift_poll mirrors (.inr ⟨rfl, rfl⟩) (.applyReplicatedTxns returned) rfl
      | stop | commit | start | check | tickInterval | msgHandlingInterval | look | skip | finish | receive
      | leave => cases asks
  | @panicked nodeId action _ runner asks found panics =>
    cases moves with
    | runner known step =>
      obtain rfl := Option.some.inj (found.symm.trans known)
      cases step with
      | called returned => cases panics.symm.trans returned
      | stop | commit | start | check | tickInterval | msgHandlingInterval | look | skip | finish | receive
      | leave => cases asks
      | panicked =>
        apply lift_still mirrors
        · intro other
          cases action with
          | updateLeader | applyReplicatedTxns => rfl
          | stop | commit | start | check | tickInterval | tick | msgHandlingInterval | take | look | finish
          | receive | count | handle | leave => cases asks
        · intro other later known
          rw [lookup_set] at known
          split at known
          next here =>
            cases known
            have same := node found
            rw [here]
            exact same
          next => exact node known

omit [BuildProfile] in
theorem Mirrors.initial {servers : List NodeId} {start : Network σ Msg}
    (spawned : spawnNodes protocol servers = some start) (shows : Shows protocol start .initial) :
    Mirrors protocol [] (start, .initial) .initial where
  shows := shows
  same := ⟨fun _ => ⟨rfl, rfl, rfl⟩, rfl, rfl⟩
  nodes := by
    intro nodeId runner found
    obtain ⟨_, _, rfl⟩ := spawn_found spawned found
    rfl
  accepted := fun _ => rfl

theorem mirrors_move {earlier : List Network.Event} {label : Network.Event × List (NodeId × Action)}
    {before final : Network σ Msg × ClusterState} (mirrors : Mirrors protocol earlier before cluster)
    (kept : Kept protocol before label final) :
    ∃ next, Run Step cluster label.2 next ∧ Mirrors protocol (earlier ++ [label.1]) final next := by
  obtain ⟨moves, ⟨called, handed, inner, hands, follows, listed⟩, shows⟩ := kept
  obtain ⟨between, first, same, nodes, accepted⟩ := lift_move mirrors moves hands
  obtain ⟨next, second, later, unchanged⟩ := lift_run same follows
  refine ⟨next, listed ▸ first.append second, shows, later, ?_, ?_⟩
  · intro nodeId runner found
    rw [(unchanged nodeId).1]
    exact nodes nodeId runner found
  · intro nodeId
    rw [(unchanged nodeId).2]
    exact accepted nodeId

theorem mirrors_run {earlier : List Network.Event} {labels : List (Network.Event × List (NodeId × Action))}
    {before final : Network σ Msg × ClusterState} (mirrors : Mirrors protocol earlier before cluster)
    (run : Run (Kept protocol) before labels final) :
    ∃ next, Run Step cluster (labels.flatMap Prod.snd) next ∧
      Mirrors protocol (earlier ++ labels.map Prod.fst) final next := by
  refine run.translate Prod.snd (fun labels pair next =>
    Mirrors protocol (earlier ++ labels.map Prod.fst) pair next) ?_ ?_
  · rw [List.map_nil, List.append_nil]
    exact mirrors
  · intro labels before label after abstract mirrors kept
    rw [List.map_append, ← List.append_assoc]
    exact mirrors_move mirrors kept

/-- The nodes of a network whose OmniPaxos keeps its contract, with their channels,
cuts and panics, are the nodes of a run of the cluster: the one of their commits, of
their polls that returned, and of what OmniPaxos did by itself, in this order. As the
network goes on, the cluster goes on with it. -/
theorem network_refines_cluster {servers : List NodeId} {start : Network σ Msg}
    {labels : List (Network.Event × List (NodeId × Action))}
    (spawned : spawnNodes protocol servers = some start) (shows : Shows protocol start .initial)
    (run : Run (Kept protocol) (start, .initial) labels (network, paxos)) :
    ∃ cluster, Run Step .initial (labels.flatMap Prod.snd) cluster ∧
      Mirrors protocol (labels.map Prod.fst) (network, paxos) cluster ∧
      ∀ more later, Run (Kept protocol) (network, paxos) more later →
        ∃ next, Run Step cluster (more.flatMap Prod.snd) next ∧
          Mirrors protocol (labels.map Prod.fst ++ more.map Prod.fst) later next := by
  obtain ⟨cluster, followed, mirrors⟩ := mirrors_run (.initial spawned shows) run
  exact ⟨cluster, followed, mirrors, fun _ _ further => mirrors_run mirrors further⟩

omit [BuildProfile] in
theorem Shows.set {nodeId : NodeId} {runner : Runner σ Msg} (shows : Shows protocol network paxos)
    (elsewhere : ∀ other, other ≠ nodeId → handed.replicas other = paxos.replicas other)
    (here : protocol.omnipaxos runner.omniDurability = (handed.replicas nodeId).omnipaxos) :
    Shows protocol (network.set nodeId runner) handed := by
  intro other found known
  rw [lookup_set] at known
  split at known
  next same =>
    cases known
    rw [same, here]
  next different =>
    rw [shows other found known, elsewhere other different]

theorem Kept.task {nodeId : NodeId} {action : RunnerAction} {runner changed : Runner σ Msg}
    {called inner : List (NodeId × Action)} {final : ClusterState}
    (shows : Shows protocol network paxos) (found : network.runners.lookup nodeId = some runner)
    (step : RunnerStep protocol runner action changed)
    (hands : Hands protocol network paxos (.runner nodeId action) called handed)
    (run : Run Internal handed inner final)
    (elsewhere : ∀ other, other ≠ nodeId → final.replicas other = paxos.replicas other)
    (here : protocol.omnipaxos changed.omniDurability = (final.replicas nodeId).omnipaxos) :
    Kept protocol (network, paxos) (.runner nodeId action, called ++ inner)
      (network.set nodeId changed, final) :=
  ⟨.runner found step, ⟨called, handed, inner, hands, run, rfl⟩, shows.set elsewhere here⟩

/-- An iteration whose polls find nothing to do, up to the messages that it takes. -/
theorem kept_polls {nodeId : NodeId} {runner : Runner σ Msg} {node : Node} {outMessages : List Msg}
    {omniDurability : σ} (shows : Shows protocol network paxos)
    (found : network.runners.lookup nodeId = some runner) (checking : runner.phase = .checking)
    (running : runner.isRunning = true)
    (hears : runner.node.updateLeader (protocol.omnipaxos runner.omniDurability) = some (node, []))
    (applies : node.applyReplicatedTxns (protocol.omnipaxos runner.omniDurability) = some (node, []))
    (takes : protocol.outgoingMessages runner.omniDurability = some (outMessages, omniDurability))
    (same : protocol.omnipaxos omniDurability = protocol.omnipaxos runner.omniDurability) : ∃ later,
      Run (Kept protocol) (network, paxos)
        [(.runner nodeId .check, []), (.runner nodeId .msgHandlingInterval, []),
          (.runner nodeId .updateLeader, [(nodeId, .updateLeader)]),
          (.runner nodeId .applyReplicatedTxns, [(nodeId, .applyReplicatedTxns)]),
          (.runner nodeId .take, [])]
        (later, paxos) ∧
      Shows protocol later paxos ∧
      later.runners.lookup nodeId = some { runner with
        node, omniDurability, phase := .sending outMessages, taken := runner.taken ++ outMessages } ∧
      ∀ other, other ≠ nodeId → later.runners.lookup other = network.runners.lookup other := by
  have reads := shows nodeId runner found
  let selecting : Runner σ Msg := { runner with phase := .selecting }
  let polling : Runner σ Msg := { runner with phase := .polling }
  let updated : Runner σ Msg := { runner with node, phase := .updated }
  let applied : Runner σ Msg := { runner with node, phase := .applied }
  have check : RunnerStep protocol runner .check selecting := by
    have goes : (if runner.isRunning then Phase.selecting else .leaving : Phase Msg) = .selecting :=
      if_pos running
    have step := @RunnerStep.check _ _ _ protocol runner checking
    rwa [goes] at step
  have hearing : polling.call protocol .updateLeader = some (some updated) :=
    (@Called.updated _ _ _ protocol polling _ _ rfl hears).call
  have applying : updated.call protocol .applyReplicatedTxns = some (some applied) :=
    (@Called.applied _ _ _ protocol updated _ _ rfl applies).call
  have taking := (@Called.took _ _ _ protocol applied _ _ rfl takes).call
  have checks := Kept.task shows found check (.nothing rfl) .nil (fun _ _ => rfl) reads
  have wakes := Kept.task checks.shows (set_self _ _ _) (.msgHandlingInterval rfl) (.nothing rfl) .nil
    (fun _ _ => rfl) reads
  have updates := Kept.task wakes.shows (set_self _ _ _) (.called hearing)
    (.polled rfl (set_self _ _ _) hearing) .nil (fun _ _ => rfl) reads
  have advances := Kept.task updates.shows (set_self _ _ _) (.called applying)
    (.polled rfl (set_self _ _ _) applying) .nil (fun _ _ => rfl) reads
  have asks :=
    Kept.task advances.shows (set_self _ _ _) (.called taking) (.nothing rfl) .nil (fun _ _ => rfl)
    (same.trans reads)
  refine ⟨_, ((((Run.nil.snoc checks).snoc wakes).snoc updates).snoc advances).snoc asks, asks.shows,
    set_self _ _ _, ?_⟩
  intro other different
  exact set_elsewhere _ different (set_elsewhere _ different
    (set_elsewhere _ different (set_elsewhere _ different (set_elsewhere _ different rfl))))

theorem kept_sends {nodeA nodeB : NodeId} {message : Msg} {sender receiver : Runner σ Msg}
    (shows : Shows protocol network paxos) (different : nodeA ≠ nodeB)
    (found : network.runners.lookup nodeA = some sender)
    (receives : network.runners.lookup nodeB = some receiver)
    (sends : sender.phase = .sending [message])
    (connected : sender.connections.lookup (protocol.getReceiver message) = some nodeB)
    (live : receiver.phase.closed = false) (room : receiver.receiver.length < msgBufferSize) : ∃ later,
      Run (Kept protocol) (network, paxos)
        [(.runner nodeA .look, []), (.deliver nodeA, [])] (later, paxos) ∧
      Shows protocol later paxos ∧ later.runners.lookup nodeA = some (sender.sent []) ∧
      later.runners.lookup nodeB = some (receiver.accept ⟨nodeA, message⟩) := by
  have shown := shows nodeA sender found
  let waits : Runner σ Msg := { sender with phase := .awaiting nodeB message [] }
  have looks := Kept.task shows found (.look sends connected) (.nothing rfl) .nil (fun _ _ => rfl) shown
  have sent : Shows protocol ((network.set nodeA waits).set nodeA (waits.sent [])) paxos :=
    looks.shows.set (fun _ _ => rfl) shown
  have accepted : Shows protocol (((network.set nodeA waits).set nodeA (waits.sent [])).set nodeB
      (receiver.accept ⟨nodeA, message⟩)) paxos := sent.set (fun _ _ => rfl) (shows nodeB receiver receives)
  have elsewhere : ((network.set nodeA waits).set nodeA (waits.sent [])).runners.lookup
      nodeB = some receiver :=
    set_elsewhere _ (Ne.symm different) (set_elsewhere _ (Ne.symm different) receives)
  have delivers : Kept protocol (network.set nodeA waits, paxos) (.deliver nodeA, []) (_, paxos) :=
    ⟨.delivered (set_self _ _ waits) rfl elsewhere live room,
    ⟨[], paxos, [], .nothing rfl, .nil, rfl⟩, accepted⟩
  exact ⟨_, (Run.nil.snoc looks).snoc delivers, accepted,
    set_elsewhere _ different (set_self _ _ _), set_self _ _ _⟩

theorem kept_handles {nodeId : NodeId} {runner : Runner σ Msg} {envelope : Envelope Msg}
    {rest : List (Envelope Msg)} {receivedMessagesSize : UInt64} {omniDurability : σ}
    {inner : List (NodeId × Action)} {final : ClusterState} (shows : Shows protocol network paxos)
    (found : network.runners.lookup nodeId = some runner) (selecting : runner.phase = .selecting)
    (next : runner.receiver = envelope :: rest)
    (added : Runner.addSize runner.receivedMessagesSize (protocol.serializedLength envelope.message) =
      some receivedMessagesSize)
    (returned : protocol.handleIncoming runner.omniDurability envelope.message = some omniDurability)
    (run : Run Internal paxos inner final)
    (elsewhere : ∀ other, other ≠ nodeId → final.replicas other = paxos.replicas other)
    (here : protocol.omnipaxos omniDurability = (final.replicas nodeId).omnipaxos) : ∃ later,
      Run (Kept protocol) (network, paxos)
        [(.runner nodeId .receive, []), (.runner nodeId .count, []), (.runner nodeId .handle, inner)]
          (later, final) ∧
      Shows protocol later final ∧
      later.runners.lookup nodeId = some { runner with
        omniDurability, receivedMessagesSize, receiver := rest, phase := .checking, handled :=
          runner.handled ++ [envelope] } ∧
      ∀ other, other ≠ nodeId → later.runners.lookup other = network.runners.lookup other := by
  have shown := shows nodeId runner found
  let received : Runner σ Msg := { runner with receiver := rest, phase := .received envelope }
  let counted : Runner σ Msg :=
    { runner with receivedMessagesSize, receiver := rest, phase := .counted envelope }
  have counting := (@Called.counted _ _ _ protocol received _ _ rfl added).call
  have handling := (@Called.handled _ _ _ protocol counted _ _ rfl returned).call
  have receives :=
    Kept.task shows found (.receive selecting next) (.nothing rfl) .nil (fun _ _ => rfl) shown
  have counts := Kept.task receives.shows (set_self _ _ _) (.called counting) (.nothing rfl) .nil
    (fun _ _ => rfl) shown
  have handles :=
    Kept.task counts.shows (set_self _ _ _) (.called handling) (.nothing rfl) run elsewhere here
  refine ⟨_, ((Run.nil.snoc receives).snoc counts).snoc handles, handles.shows, set_self _ _ _, ?_⟩
  intro other different
  exact set_elsewhere _ different (set_elsewhere _ different (set_elsewhere _ different rfl))

end Nodes

inductive PairMessage
  | accept (log : List DatabaseLogEntry)
  | accepted (length : Nat)

/-- The OmniPaxos of one of two nodes. -/
structure Pair where
  currentLeader : Option NodeId
  log : List DatabaseLogEntry
  decidedIdx : Nat
  outgoing : List PairMessage

/-- Node 1 is elected, and decides what node 2 has taken over from it. -/
def pair : Protocol Pair PairMessage where
  new _ _ := some ⟨none, [], 0, []⟩
  omnipaxos replica := .ofLog replica.currentLeader replica.log replica.decidedIdx
  tick replica := some { replica with currentLeader := some 1 }
  handleIncoming replica message := some <| match message with
    | .accept log => { replica with
        currentLeader := some 1, log, outgoing := replica.outgoing ++ [.accepted log.length] }
    | .accepted decidedIdx => { replica with decidedIdx }
  outgoingMessages replica := some (replica.outgoing, { replica with outgoing := [] })
  append replica entry := { replica with
    log := replica.log ++ [entry]
    outgoing := replica.outgoing ++ [.accept (replica.log ++ [entry])] }
  getReceiver message := match message with
    | .accept _ => 2
    | .accepted _ => 1
  serializedLength _ := 1

/-- Node 1 elects itself and commits, node 2 takes the entry over, and node 1 hears of it and
decides. -/
theorem network_refines_cluster_pair : ∃ start labels network paxos first second cluster,
    spawnNodes pair [1, 2] = some start ∧
    Run (@Kept _ _ ⟨true⟩ pair) (start, .initial) labels (network, paxos) ∧
    network.runners.lookup 1 = some first ∧ network.runners.lookup 2 = some second ∧
    second.handled.length = 1 ∧ first.handled.length = 1 ∧
    @Run _ _ (@Step ⟨true⟩) .initial (labels.flatMap Prod.snd) cluster ∧
    cluster.decided.map Item.tx = [put "a" "1"] ∧ (cluster.replicas 1).node = first.node ∧
    (cluster.replicas 2).node = second.node := by
  let : BuildProfile := ⟨true⟩
  obtain ⟨start, spawned, first, second, others⟩ := @spawn_two _ _ pair _ _ rfl rfl
  have shows : Shows pair start .initial := by
    intro nodeId runner known
    obtain ⟨_, omniDurability, rfl⟩ := spawn_found spawned known
    by_cases isFirst : nodeId = 1
    · subst isFirst
      cases first.symm.trans known
      rfl
    · by_cases isSecond : nodeId = 2
      · subst isSecond
        cases second.symm.trans known
        rfl
      · cases (others nodeId isFirst isSecond).symm.trans known
  let elected :=
    ClusterState.initial.record 1 (.elect (some 1)) { Replica.new 1 with currentLeader := some 1 }
  let item : Item := ⟨0, put "a" "1", ⟨0, payload (put "a" "1")⟩⟩
  let handed := handOver elected 1 item
  let named := handed.record 2 (.elect (some 1)) { handed.replicas 2 with currentLeader := some 1 }
  let adopted := named.record 2 (.adopt 1 1) { named.replicas 2 with log := (named.replicas 1).log.take 1 }
  let decided := adopted.record 1 (.decide 1) { adopted.replicas 1 with decidedIdx := 1 }
  have elects : Run Internal .initial [(1, .elect (some 1))] elected :=
    Run.nil.snoc ⟨rfl, .mk (.elect (some 1))⟩
  have adopts : Run Internal handed [(2, .elect (some 1)), (2, .adopt 1 1)] adopted :=
    (Run.nil.snoc ⟨rfl, .mk (.elect (some 1))⟩).snoc ⟨rfl, .mk (.adopt rfl)⟩
  have decides : Run Internal adopted [(1, .decide 1)] decided :=
    Run.nil.snoc ⟨rfl, .mk (.decide (Nat.zero_le 1) (by exact Nat.le_refl 1) List.nil_prefix)⟩
  have starts := Kept.task shows first (.start rfl) (.nothing rfl) .nil (fun _ _ => rfl) rfl
  have checks :=
    Kept.task starts.shows (set_self _ _ _) (.check rfl) (.nothing rfl) .nil (fun _ _ => rfl) rfl
  have wakes :=
    Kept.task checks.shows (set_self _ _ _) (.tickInterval rfl) (.nothing rfl) .nil (fun _ _ => rfl) rfl
  have ticks := Kept.task wakes.shows (set_self _ _ _)
    (@RunnerStep.called _ _ _ pair _ .tick _ rfl) (.nothing rfl) elects
    (fun _ => ClusterState.initial.record_elsewhere _ _) rfl
  have executed : (Node.new 1).execute (.ofLog (some 1) [] 0) (put "a" "1") = _ :=
    execute_leader rfl sound_new _
  have commits := Kept.task ticks.shows (set_self _ _ _) (.commit (by simp) executed)
    (.entry (set_self _ _ _) executed) .nil
    (fun other different => Function.update_of_ne different _ _) rfl
  -- the iteration of node 1 that sends the entry
  obtain ⟨asked, polls, shown, sends, others⟩ :=
    kept_polls commits.shows (set_self _ _ _) rfl rfl rfl rfl rfl rfl
  obtain ⟨filled, fills, shown, sender, receiver⟩ := kept_sends shown (by decide) sends
    ((others 2 (by decide)).trans
      (set_elsewhere _ (by decide) (set_elsewhere _ (by decide) (set_elsewhere _ (by decide)
      (set_elsewhere _ (by decide) (set_elsewhere _ (by decide) second)))))) rfl rfl rfl (by decide)
  have startsAgain := Kept.task shown receiver (.start rfl) (.nothing rfl) .nil (fun _ _ => rfl) rfl
  have selects :=
    Kept.task startsAgain.shows (set_self _ _ _) (.check rfl) (.nothing rfl) .nil (fun _ _ => rfl) rfl
  obtain ⟨taken, takes, shown, follower, others⟩ :=
    kept_handles selects.shows (set_self _ _ _) rfl rfl rfl rfl adopts
    (fun other different => ((ClusterState.record_elsewhere _ _ _ different).trans
      (ClusterState.record_elsewhere _ _ _ different))) rfl
  have sender :=
    (others 1 (by decide)).trans (set_elsewhere _ (by decide) (set_elsewhere _ (by decide) sender))
  -- the iteration of node 2 that answers
  obtain ⟨answering, pollsAgain, shown, answers, others⟩ :=
    kept_polls shown follower rfl rfl rfl rfl rfl rfl
  obtain ⟨answered, replies, shown, follower, leader⟩ := kept_sends shown (by decide) answers
    ((others 1 (by decide)).trans sender) rfl rfl rfl (by decide)
  have finishes := Kept.task shown leader (.finish rfl) (.nothing rfl) .nil (fun _ _ => rfl) rfl
  have selectsAgain :=
    Kept.task finishes.shows (set_self _ _ _) (.check rfl) (.nothing rfl) .nil (fun _ _ => rfl) rfl
  obtain ⟨last, hears, _, leader, others⟩ :=
    kept_handles selectsAgain.shows (set_self _ _ _) rfl rfl rfl rfl decides
    (fun other different => ClusterState.record_elsewhere _ _ _ different) rfl
  have replicates :=
    ((((((((Run.nil.snoc starts).snoc checks).snoc wakes).snoc ticks).snoc commits).append
      polls).append fills).snoc startsAgain).snoc selects
  have run :=
    (((((replicates.append takes).append pollsAgain).append replies).snoc finishes).snoc
      selectsAgain).append hears
  have follower :=
    (others 2 (by decide)).trans (set_elsewhere _ (by decide) (set_elsewhere _ (by decide) follower))
  obtain ⟨cluster, followed, mirrors, _⟩ := network_refines_cluster spawned shows run
  exact ⟨start, _, last, decided, _, _, cluster, spawned, run, leader, follower, rfl, rfl, followed,
    congrArg _ mirrors.same.decided, mirrors.nodes 1 _ leader, mirrors.nodes 2 _ follower⟩

end OmniSpacetimeDb.Proofs.NetworkCluster
