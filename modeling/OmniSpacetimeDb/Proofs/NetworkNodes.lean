import OmniSpacetimeDb.Proofs.NetworkStalls
import OmniSpacetimeDb.Proofs.Serializability

/-! Each node of a network by itself. What happens to it among the others is a run
of a single node under clients and runner, and after a stop next to nothing is. -/

namespace OmniSpacetimeDb.Proofs.NetworkNodes
open Foundations Datastore Durability Cluster Store NodePoll Watermark NetworkTraffic NetworkDelivery
  NetworkStalls Serializability
variable {σ Msg : Type}

/-- A node between the calls of its clients and of its runner. -/
structure Quiet (server : Server) (node : Node) : Prop where
  node : server.node = node
  idle : ∀ client, server.clients client = .idle
  free : server.waiting = none

section Server
variable [BuildProfile] {nodeId : NodeId} {events : List Server.Event} {server : Server} {node after : Node}

/-- A run of a single node that ends between two calls. -/
def Reached (nodeId : NodeId) (node : Node) : Prop :=
  ∃ events server, Run Server.Moves (.new nodeId) events server ∧ Quiet server node

theorem reached_new (nodeId : NodeId) : Reached nodeId (.new nodeId) :=
  ⟨[], .new nodeId, .nil, rfl, fun _ => rfl, rfl⟩

theorem Reached.update {omnipaxos : OmniPaxos} {replays : List Replay} (reached : Reached nodeId node)
    (returned : node.updateLeader omnipaxos = some (after, replays)) : Reached nodeId after := by
  obtain ⟨events, server, run, rfl, idle, free⟩ := reached
  have ready : { server with omnipaxos }.Ready .updateLeader := trivial
  have served : { server with omnipaxos }.serve .updateLeader =
      some (Server.setNode { server with omnipaxos } after) := by
    rw [Server.serve, returned]
    rfl
  exact ⟨_, _, (run.snoc (.observe omnipaxos free)).snoc
    (.served free ready (@free_of_idle { server with omnipaxos } idle _) served), rfl, idle, free⟩

theorem Reached.apply {omnipaxos : OmniPaxos} {replays : List Replay} (reached : Reached nodeId node)
    (returned : node.applyReplicatedTxns omnipaxos = some (after, replays)) : Reached nodeId after := by
  obtain ⟨events, server, run, rfl, idle, free⟩ := reached
  have ready : { server with omnipaxos }.Ready .applyReplicatedTxns := trivial
  have served : { server with omnipaxos }.serve .applyReplicatedTxns =
      some (Server.setNode { server with omnipaxos } after) := by
    rw [Server.serve, returned]
    rfl
  exact ⟨_, _, (run.snoc (.observe omnipaxos free)).snoc
    (.served free ready (@free_of_idle { server with omnipaxos } idle _) served), rfl, idle, free⟩

/-- The calls of a transaction, one after another. -/
theorem uses_run {client : ClientId} {calls : List Call} {tx closed : MutTx}
    (inside : server.clients client = .writing tx) (ran : tx.run calls = some closed) :
    ∃ events last, Run Server.Moves server events last ∧ last.node = server.node ∧
      last.omnipaxos = server.omnipaxos ∧ last.waiting = server.waiting ∧
      last.clients client = .writing closed ∧
      ∀ other, other ≠ client → last.clients other = server.clients other := by
  induction calls generalizing server tx with
  | nil =>
    cases ran
    exact ⟨[], server, .nil, rfl, rfl, rfl, inside, fun _ _ => rfl⟩
  | cons call calls ih =>
    obtain ⟨next, returned, rest⟩ := Option.bind_eq_some_iff.mp ran
    obtain ⟨events, last, run, same, shown, waits, writes, others⟩ :=
      @ih (server.setClient client (.writing next)) next
      ((clients_setClient _ _ _ _).trans (if_pos rfl)) rest
    refine ⟨_, last, (Run.nil.snoc (.used inside returned)).append run, same, shown, waits, writes, ?_⟩
    intro other different
    rw [others other different, clients_setClient, if_neg different]

theorem Reached.execute {omnipaxos : OmniPaxos} {tx : ClientTx} {result : TxResult}
    {entry : DatabaseLogEntry} (reached : Reached nodeId node)
    (returned : node.execute omnipaxos tx = some (.ok (result, entry, after))) :
    Reached nodeId after := by
  obtain ⟨events, server, run, rfl, idle, free⟩ := reached
  obtain ⟨operations, stored, _⟩ := (serial_run run).store
  have sound := Transaction.sound_run stored
  obtain ⟨leader, _, rfl⟩ := execute_cases sound returned
  have leads : (server.node.omniDurability omnipaxos).isLeader = true := isLeader_of leader
  have opens : { server with omnipaxos }.serve (.beginMutTx 0) =
      some (Server.setClient { server with omnipaxos } 0 (.writing server.node.datastore.beginMutTx)) := by
    simp only [Server.serve, Node.beginMutTx, leads, if_true]
  have ready : { server with omnipaxos }.Ready (.beginMutTx 0) := idle 0
  obtain ⟨calls, last, used, same, shown, waits, inside, others⟩ :=
    @uses_run _ (Server.setClient { server with omnipaxos } 0
    (.writing server.node.datastore.beginMutTx)) 0 tx.calls _ _
      ((clients_setClient _ _ _ _).trans (if_pos rfl))
    (run_eq server.node.datastore.beginMutTx sound tx.calls)
  have committing : (last.setClient 0 (.committing ⟨writes tx.calls, server.node.datastore⟩)).clients 0 =
      .committing ⟨writes tx.calls, server.node.datastore⟩ := (clients_setClient _ _ _ _).trans (if_pos rfl)
  have commits : last.node.commitMutTx last.omnipaxos ⟨writes tx.calls, server.node.datastore⟩ tx.order =
      .ok (⟨server.node.datastore.nextTxOffset, payload tx⟩,
        ⟨server.node.datastore.nextTxOffset, payload tx⟩,
        { server.node with datastore := committed tx server.node.datastore }) := by
    rw [same, shown, Node.commitMutTx, commit_eq]
    exact if_pos leads
  refine ⟨_, _,
    ((((run.snoc (.observe omnipaxos free)).snoc
      (.served free ready (@free_of_idle { server with omnipaxos } idle _) opens)).append used).snoc
    (.finishWrite inside)).snoc (.committed (waits.trans free) committing tx.visits commits),
      rfl, ?_, waits.trans free⟩
  intro other
  rw [clients_setClient]
  split
  · rfl
  next different =>
    show (last.setClient 0 _).clients other = .idle
    rw [clients_setClient, if_neg different, others other different, clients_setClient, if_neg different]
    exact idle other

end Server

section Runs
variable [BuildProfile] {protocol : Protocol σ Msg} {servers : List NodeId}
  {start network : Network σ Msg} {events : List Network.Event}

theorem Reached.changes {event : Network.Event} {nodeId : NodeId} {runner changed : Runner σ Msg}
    (reached : Reached nodeId runner.node) (changes : Changes protocol event nodeId runner changed) :
    Reached nodeId changed.node := by
  cases changes with
  | task step =>
    cases step with
    | stop | start | check | tickInterval | msgHandlingInterval | panicked | look | skip | finish | receive
    | leave => exact reached
    | commit _ returned => exact reached.execute returned
    | called called =>
      cases call_cases called with
      | ticked | took | counted | handled => exact reached
      | updated _ returned => exact reached.update returned
      | applied _ returned => exact reached.apply returned
  | sent | accepted => exact reached
  | stroke stroke =>
    rw [stroke_frame]
    exact reached

/-- In a network each node goes through a run of a single node, whatever its
messages and connections: its store is what operations of the store leave, and the
applied index is the replicated offset. -/
theorem network_refines_server (spawned : spawnNodes protocol servers = some start)
    (run : Run (Network.Moves protocol) start events network) {nodeId : NodeId} {runner : Runner σ Msg}
    (found : network.runners.lookup nodeId = some runner) :
    (∃ moves server, Run Server.Moves (.new nodeId) moves server ∧ server.node = runner.node ∧
      ∀ client, server.clients client = .idle) ∧
    (∃ operations, Run Operates .new operations runner.node.datastore) ∧
    runner.node.lastAppliedIndex = runner.node.datastore.getReplicatedOffset := by
  have reached : Reached nodeId runner.node := by
    refine runners_invariant run (fun nodeId runner => Reached nodeId runner.node)
      (fun _ _ => trivial) ?_ ?_ nodeId runner found
    · intro nodeId runner found
      obtain ⟨_, _, rfl⟩ := spawn_found spawned found
      exact reached_new nodeId
    · exact fun event nodeId runner changed _ reached changes => reached.changes changes
  obtain ⟨moves, server, single, same, idle, _⟩ := reached
  refine ⟨⟨moves, server, single, same, idle⟩, ?_, ?_⟩
  · obtain ⟨operations, stored, _⟩ := (serial_run single).store
    exact ⟨operations, same ▸ stored⟩
  · rw [← same]
    exact (single.invariant Tied (tied_new nodeId) fun _ _ _ tied moves => tied_step tied moves).coupled

end Runs

theorem network_refines_server_exchange : ∃ start events network receiver,
    spawnNodes (greetings none 1) [1, 2] = some start ∧
    Run (@Network.Moves _ _ ⟨true⟩ (greetings none 1)) start events network ∧
    network.runners.lookup 2 = some receiver ∧ receiver.handled = [⟨1, 2⟩] ∧
    receiver.node.lastAppliedIndex = receiver.node.datastore.getReplicatedOffset := by
  let : BuildProfile := ⟨true⟩
  obtain ⟨start, network, _, receiver, spawned, run, _, _, _, found, handled, _⟩ := greetings_exchange
  exact ⟨start, _, network, receiver, spawned, run, found, handled,
    (network_refines_server spawned run found).2.2⟩

section Stop

/-- How far a runner is from the end of the calls of its iteration. -/
def stage : Phase Msg → Nat
  | .selecting => 4
  | .polling => 3
  | .updated => 2
  | .applied | .received _ | .counted _ => 1
  | _ => 0

/-- The runner may still handle a message in the iteration it is in. -/
def mayHandle : Phase Msg → Bool
  | .selecting | .received _ | .counted _ => true
  | _ => false

/-- What is left to a runner that has been stopped: the iteration it is in. -/
structure WindsDown (before after : Runner σ Msg) : Prop where
  stopped : after.isRunning = false
  stage : stage after.phase ≤ stage before.phase
  handles : mayHandle after.phase = true → mayHandle before.phase = true
  handled : after.handled = before.handled ∨
    mayHandle before.phase = true ∧ mayHandle after.phase = false ∧
      ∃ envelope, after.handled = before.handled ++ [envelope]
  taken : NetworkNodes.stage before.phase = 0 → after.taken = before.taken
  applied : NetworkNodes.stage before.phase ≤ 1 →
    after.node.lastAppliedIndex = before.node.lastAppliedIndex ∧
    after.node.datastore.replicatedState = before.node.datastore.replicatedState

theorem WindsDown.refl {runner : Runner σ Msg} (stopped : runner.isRunning = false) :
    WindsDown runner runner :=
  ⟨stopped, Nat.le_refl _, id, .inl rfl, fun _ => rfl, fun _ => ⟨rfl, rfl⟩⟩

theorem WindsDown.trans {before middle after : Runner σ Msg} (first : WindsDown before middle)
    (second : WindsDown middle after) : WindsDown before after where
  stopped := second.stopped
  stage := Nat.le_trans second.stage first.stage
  handles may := first.handles (second.handles may)
  handled := by
    rcases second.handled with same | ⟨may, done, envelope, grown⟩
    · rw [same]
      rcases first.handled with same | ⟨may, done, grown⟩
      · exact .inl same
      · refine .inr ⟨may, ?_, grown⟩
        cases after : mayHandle after.phase with
        | false => rfl
        | true => cases done.symm.trans (second.handles after)
    · rcases first.handled with same | ⟨_, left, _⟩
      · exact .inr ⟨first.handles may, done, envelope, same ▸ grown⟩
      · cases may.symm.trans left
  taken done := (second.taken (Nat.le_zero.mp (done ▸ first.stage))).trans (first.taken done)
  applied near := by
    obtain ⟨index, state⟩ := first.applied near
    obtain ⟨laterIndex, laterState⟩ := second.applied (Nat.le_trans first.stage near)
    exact ⟨laterIndex.trans index, laterState.trans state⟩

variable [BuildProfile] {protocol : Protocol σ Msg} {network later : Network σ Msg}
  {events : List Network.Event}

theorem winds_down {event : Network.Event} {nodeId : NodeId} {runner changed : Runner σ Msg}
    (stopped : runner.isRunning = false) (changes : Changes protocol event nodeId runner changed) :
    WindsDown runner changed := by
  have idle {changed : Runner σ Msg} (running : changed.isRunning = false)
      (low : stage changed.phase ≤ stage runner.phase)
      (handles : mayHandle changed.phase = true → mayHandle runner.phase = true)
      (handled : changed.handled = runner.handled) (taken : changed.taken = runner.taken)
      (node : changed.node = runner.node) : WindsDown runner changed :=
    ⟨running, low, handles, .inl handled, fun _ => taken, fun _ => by rw [node]; exact ⟨rfl, rfl⟩⟩
  cases changes with
  | task step =>
    cases step with
    | stop => exact idle rfl (Nat.le_refl _) id rfl rfl rfl
    | commit _ returned =>
      exact ⟨stopped, Nat.le_refl _, id, .inl rfl, fun _ => rfl, fun _ => execute_keeps returned⟩
    | check =>
      have leaves : (if runner.isRunning then Phase.selecting else .leaving : Phase Msg) = .leaving := by
        rw [stopped]
        rfl
      exact idle stopped (by rw [leaves]; exact Nat.zero_le _) (by rw [leaves]; nofun) rfl rfl rfl
    | start | panicked | look | skip | finish | leave =>
      exact idle stopped (Nat.zero_le _) nofun rfl rfl rfl
    | tickInterval => exact idle stopped (Nat.zero_le _) nofun rfl rfl rfl
    | msgHandlingInterval selecting =>
      exact idle stopped (by rw [selecting]; exact Nat.le_succ 3) nofun rfl rfl rfl
    | receive selecting =>
      exact idle stopped (by rw [selecting]; exact Nat.le_add_left 1 3)
        (fun _ => by rw [selecting]; rfl) rfl rfl rfl
    | called called =>
      cases call_cases called with
      | ticked => exact idle stopped (Nat.zero_le _) nofun rfl rfl rfl
      | updated phase =>
        have far : ¬ stage runner.phase ≤ 1 := by simp [phase, stage]
        exact ⟨stopped, by rw [phase]; exact Nat.le_succ 2, nofun, .inl rfl, fun _ => rfl,
          fun near => absurd near far⟩
      | applied phase =>
        have far : ¬ stage runner.phase ≤ 1 := by simp [phase, stage]
        exact ⟨stopped, by rw [phase]; exact Nat.le_succ 1, nofun, .inl rfl, fun _ => rfl,
          fun near => absurd near far⟩
      | took phase =>
        have busy : stage runner.phase ≠ 0 := by simp [phase, stage]
        exact ⟨stopped, Nat.zero_le _, nofun, .inl rfl, fun done => absurd done busy, fun _ => ⟨rfl, rfl⟩⟩
      | counted phase =>
        exact idle stopped (by rw [phase]; exact Nat.le_refl 1) (fun _ => by rw [phase]; rfl) rfl rfl rfl
      | handled phase =>
        exact ⟨stopped, Nat.zero_le _, nofun, .inr ⟨by rw [phase]; rfl, rfl, _, rfl⟩,
          fun _ => rfl, fun _ => ⟨rfl, rfl⟩⟩
  | sent => exact idle stopped (Nat.zero_le _) nofun rfl rfl rfl
  | accepted => exact idle stopped (Nat.le_refl _) id rfl rfl rfl
  | stroke stroke =>
    rw [stroke_frame]
    exact idle stopped (Nat.le_refl _) id rfl rfl rfl

/-- A node that was stopped handles at most one more message, and that only if its
runner was about to select or had the message already. Once the calls of that iteration
are made it takes no messages and applies nothing, whatever the others and its clients do. -/
theorem stopped_node_winds_down {nodeId : NodeId} {runner last : Runner σ Msg}
    (found : network.runners.lookup nodeId = some runner) (stopped : runner.isRunning = false)
    (run : Run (Network.Moves protocol) network events later)
    (final : later.runners.lookup nodeId = some last) :
    last.isRunning = false ∧
    (last.handled = runner.handled ∨
      mayHandle runner.phase = true ∧ ∃ envelope, last.handled = runner.handled ++ [envelope]) ∧
    (stage runner.phase = 0 → last.handled = runner.handled ∧ last.taken = runner.taken ∧
      last.node.lastAppliedIndex = runner.node.lastAppliedIndex ∧
      last.node.datastore.replicatedState = runner.node.datastore.replicatedState) := by
  have winds : WindsDown runner last := by
    refine runners_invariant run (fun other changed => other = nodeId → WindsDown runner changed)
      (fun _ _ => trivial) ?_ ?_ nodeId last final rfl
    · intro other changed known same
      subst same
      obtain rfl := Option.some.inj (found.symm.trans known)
      exact .refl stopped
    · intro event other changed after _ valid changes same
      exact (valid same).trans (winds_down (valid same).stopped changes)
  refine ⟨winds.stopped, ?_, ?_⟩
  · rcases winds.handled with same | ⟨may, _, grown⟩
    · exact .inl same
    · exact .inr ⟨may, grown⟩
  · intro done
    refine ⟨?_, winds.taken done, winds.applied (Nat.le_trans (Nat.le_of_eq done) (Nat.zero_le 1))⟩
    rcases winds.handled with same | ⟨may, _⟩
    · exact same
    · cases phase : runner.phase <;> simp [phase, stage, mayHandle] at done may

end Stop

/-- Node 2 is stopped as it is about to select, with the message of node 1 in its channel: it
handles that one, and ends. -/
theorem stopped_node_winds_down_selecting : ∃ start stopped more later runner last,
    spawnNodes (greetings none 1) [1, 2] = some start ∧
    Run (@Network.Moves _ _ ⟨true⟩ (greetings none 1)) start (greeting ++ [.runner 2 .stop]) stopped ∧
    stopped.runners.lookup 2 = some runner ∧ runner.phase = .selecting ∧
    Run (@Network.Moves _ _ ⟨true⟩ (greetings none 1)) stopped more later ∧
    later.runners.lookup 2 = some last ∧ last.handled = [⟨1, 2⟩] ∧ last.phase = .ended ∧
    last.isRunning = false := by
  let : BuildProfile := ⟨true⟩
  obtain ⟨start, network, _, spawned, run, _, _, _, found⟩ := greetings_selects
  let halted : Runner (List NodeId) NodeId :=
    { (newcomer 2 [1]).accept ⟨1, 2⟩ with phase := .selecting, isRunning := false }
  have stops : Run (Network.Moves (greetings none 1)) start (greeting ++ [.runner 2 .stop])
      (network.set 2 halted) :=
    run.snoc (.runner found (.stop nofun))
  have waits : (network.set 2 halted).runners.lookup 2 = some halted := set_self _ _ _
  obtain ⟨handled, handles, known, _⟩ :=
    @greetings_handle _ none 1 _ _ [] 2 halted ⟨1, 2⟩ [] .nil waits rfl rfl rfl
  have checks := handles.snoc (.runner known (.check rfl))
  have leaves := checks.snoc (.runner (set_self _ _ _) (.leave rfl))
  obtain ⟨ended, _⟩ := stopped_node_winds_down waits rfl leaves (set_self _ _ _)
  exact ⟨start, _, _, _, halted, _, spawned, stops, waits, rfl, leaves, set_self _ _ _, rfl, rfl, ended⟩

end OmniSpacetimeDb.Proofs.NetworkNodes
