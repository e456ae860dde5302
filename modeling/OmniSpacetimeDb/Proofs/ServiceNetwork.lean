import OmniSpacetimeDb.Cluster.Service
import OmniSpacetimeDb.Proofs.NetworkCluster
import OmniSpacetimeDb.Proofs.Serializability

/-! The network with open transactions behaves as the one whose transactions are
single steps. A node changes only when a transaction commits, and until then the
store that it began on is still there. -/

namespace OmniSpacetimeDb.Proofs.ServiceNetwork
open Foundations Datastore Durability Cluster Store NodePoll NodeOperations NetworkTraffic
  NetworkDelivery NetworkCluster Serializability
variable {σ Msg : Type}

/-- What the clients of a node did: the calls of each open transaction, and of each one committed. -/
structure Session where
  calls : ClientId → List Call
  commits : List (List Call)

def Session.ended (session : Session) (client : ClientId) : Session :=
  { session with calls := Function.update session.calls client [] }

def Session.record (nodeId : NodeId) (session : Session) : Service.Event → Session
  | .client other (.use client call) =>
    if other = nodeId then { session with
      calls := Function.update session.calls client (session.calls client ++ [call]) } else session
  | .client other (.drop client) | .client other (.release client) | .abandon other client
  | .refuse other client =>
    if other = nodeId then session.ended client else session
  | .commit other client _ =>
    if other = nodeId then { session.ended client with
      commits := session.commits ++ [session.calls client] } else session
  | .network _ | .wait _ _ | .client _ _ => session

def sessionOf (nodeId : NodeId) (events : List Service.Event) : Session :=
  events.foldl (Session.record nodeId) ⟨fun _ => [], []⟩

/-- The session as the trace of a single node that reads this of OmniPaxos. -/
def Session.trace (session : Session) (omnipaxos : OmniPaxos) : Trace :=
  ⟨omnipaxos, session.calls, session.commits⟩

/-- The transactions of a node do not see each other, nor what is made of the log meanwhile. -/
structure Isolated (calls : ClientId → List Call) (server : Server) : Prop where
  alone : ∀ client tx, server.clients client = .writing tx → ∀ other, other ≠ client →
    server.clients other = .idle
  answered : ∀ client tx, server.clients client = .writing tx → ∃ memory,
    (∀ key, server.node.datastore.get key .memory = some (memory key)) ∧
    ∀ call, ∃ next, tx.reply call =
      some ((Transaction.plainReply (Transaction.plainReplies memory (calls client)).2 call).1, next)
  read : ∀ client tx, server.clients client = .reading tx → ∀ key, ∃ value,
    tx.get key = some value ∧ server.node.datastore.get key tx.durabilityLevel = some value

section Servers
variable [BuildProfile] {nodeId : NodeId} {trace : Trace} {server after : Server}

omit [BuildProfile] in
theorem request_serves {action : RunnerAction} {request : Request}
    (asks : action.request = some request) :
    action = .updateLeader ∧ request = .updateLeader ∨
      action = .applyReplicatedTxns ∧ request = .applyReplicatedTxns := by
  cases action with
  | updateLeader => exact .inl ⟨rfl, (Option.some.inj asks).symm⟩
  | applyReplicatedTxns => exact .inr ⟨rfl, (Option.some.inj asks).symm⟩
  | stop | commit | start | check | tickInterval | tick | msgHandlingInterval | take | look | finish
  | receive | count | handle | leave => cases asks

theorem begin_keeps {request : Request} (own : request.ofClient = true)
    (returned : server.serve request = some after) :
    after.node = server.node ∧ after.omnipaxos = server.omnipaxos := by
  cases request with
  | beginTx =>
    cases returned
    exact ⟨rfl, rfl⟩
  | beginMutTx =>
    rw [Server.serve] at returned
    split at returned <;> cases returned <;> exact ⟨rfl, rfl⟩
  | updateLeader | applyReplicatedTxns => cases own

/-- What a client does up to handing its transaction in changes neither its node nor OmniPaxos. -/
theorem client_keeps {event : Server.Event} (own : server.ofClient event = true)
    (moves : Server.Moves server event after) :
    after.node = server.node ∧ after.omnipaxos = server.omnipaxos := by
  cases moves with
  | observe | committed | refused => cases own
  | served _ _ _ returned => exact begin_keeps own returned
  | resumed waits _ returned =>
    rw [Server.ofClient, waits] at own
    have kept := begin_keeps own returned
    exact kept
  | waits | read | used | finishRead | finishWrite | dropped | released => exact ⟨rfl, rfl⟩

omit [BuildProfile] in
theorem trace_client {event : Server.Event} (session : Session) (omnipaxos : OmniPaxos)
    (own : server.ofClient event = true) :
    (session.trace omnipaxos).record nodeId event =
      (session.record nodeId (.client nodeId event)).trace omnipaxos := by
  cases event with
  | observe | commit => cases own
  | call | resume | finish => rfl
  | use | drop | release => simp only [Session.trace, Trace.record, Session.record, if_true, Session.ended]

end Servers

section Steps
variable [BuildProfile] {protocol : Protocol σ Msg} {sessions : NodeId → Session}
  {service after : Service σ Msg} {event : Service.Event}

/-- At each node the transactions are serial, with these calls and commits. -/
def Serials (protocol : Protocol σ Msg) (sessions : NodeId → Session) (service : Service σ Msg) : Prop :=
  ∀ nodeId runner, service.network.runners.lookup nodeId = some runner →
    Serial nodeId ((sessions nodeId).trace (protocol.omnipaxos runner.omniDurability))
      (service.server protocol nodeId runner)

omit [BuildProfile] in
theorem record_elsewhere {nodeId other : NodeId} (session : Session) (different : other ≠ nodeId) :
    (∀ event, session.record other (.client nodeId event) = session) ∧
    (∀ client, session.record other (.abandon nodeId client) = session ∧
      session.record other (.refuse nodeId client) = session) ∧
    ∀ client order, session.record other (.commit nodeId client order) = session := by
  have elsewhere : ¬ nodeId = other := Ne.symm different
  refine ⟨?_, fun client => ⟨if_neg elsewhere, if_neg elsewhere⟩, fun client order => if_neg elsewhere⟩
  intro event
  cases event with
  | use | drop | release => exact if_neg elsewhere
  | observe | call | resume | finish | commit => rfl

omit [BuildProfile] in
theorem server_setWaiting (nodeId : NodeId) (waiting : Option Request) (runner : Runner σ Msg) :
    (service.setWaiting nodeId waiting).server protocol nodeId runner =
      { service.server protocol nodeId runner with waiting } := by
  simp only [Service.server, Service.setWaiting, Function.update_self]

omit [BuildProfile] in
theorem server_setClients (nodeId : NodeId) (clients : ClientId → Client) (runner : Runner σ Msg) :
    (service.setClients nodeId clients).server protocol nodeId runner =
      { service.server protocol nodeId runner with clients } := by
  simp only [Service.server, Service.setClients, Function.update_self]

/-- Nothing happens but at one node. -/
theorem Serials.change (serials : Serials protocol sessions service) {nodeId : NodeId}
    {later : NodeId → Session}
    (others : ∀ other, other ≠ nodeId →
      after.network.runners.lookup other = service.network.runners.lookup other ∧
      after.waiting other = service.waiting other ∧ after.clients other = service.clients other ∧
        later other = sessions other)
    (here : ∀ runner, after.network.runners.lookup nodeId = some runner →
      Serial nodeId ((later nodeId).trace (protocol.omnipaxos runner.omniDurability))
        (after.server protocol nodeId runner)) :
    Serials protocol later after := by
  intro other runner found
  by_cases mine : other = nodeId
  · subst mine
    exact here runner found
  · obtain ⟨same, waiting, clients, session⟩ := others other mine
    rw [same] at found
    have serial := serials other runner found
    rw [Service.server, waiting, clients, session]
    exact serial

theorem Serials.network {event : Network.Event} {network : Network σ Msg}
    (serials : Serials protocol sessions service) (storeless : event.usesStore = false)
    (moves : Network.Moves protocol service.network event network) :
    Serials protocol sessions { service with network } := by
  refine moves_keep (fun nodeId runner =>
    Serial nodeId ((sessions nodeId).trace (protocol.omnipaxos runner.omniDurability))
    (service.server protocol nodeId runner)) serials ?_ moves
  intro nodeId runner changed serial changes
  have node := changes_node storeless changes
  have observed := serial.observe (protocol.omnipaxos changed.omniDurability)
  rw [Service.server, node]
  exact observed

/-- A poll goes on only when it gets the lock, so no transaction is open that it would change
the store under. -/
theorem Serials.polled (serials : Serials protocol sessions service) {nodeId : NodeId}
    {action : RunnerAction} {request : Request} {runner changed : Runner σ Msg}
    (asks : action.request = some request) (found : service.network.runners.lookup nodeId = some runner)
    (granted : ¬ (service.server protocol nodeId runner).Blocked request)
    (step : RunnerStep protocol runner action changed) :
    Serials protocol sessions { service.setWaiting nodeId none with
      network := service.network.set nodeId changed } := by
  have serial := serials nodeId runner found
  refine serials.change (fun other different =>
    ⟨set_elsewhere changed different rfl, Function.update_of_ne different _ _, rfl, rfl⟩) ?_
  intro last known
  obtain rfl := Option.some.inj ((set_self service.network nodeId changed).symm.trans known)
  show Serial nodeId _ ((service.setWaiting nodeId none).server protocol nodeId changed)
  rw [server_setWaiting]
  rcases request_serves asks with ⟨rfl, rfl⟩ | ⟨rfl, rfl⟩
  · cases step with
    | panicked => exact serial.cleared
    | called called =>
      cases call_cases called with
      | updated _ returned =>
        have ready : (service.server protocol nodeId runner).Ready .updateLeader := trivial
        have served := serial.serve ready granted (Option.map_eq_some_iff.mpr ⟨_, returned, rfl⟩)
        exact served
  · cases step with
    | panicked => exact serial.cleared
    | called called =>
      cases call_cases called with
      | applied _ returned =>
        have ready : (service.server protocol nodeId runner).Ready .applyReplicatedTxns := trivial
        have served := serial.serve ready granted (Option.map_eq_some_iff.mpr ⟨_, returned, rfl⟩)
        exact served

theorem Serials.client (serials : Serials protocol sessions service) {nodeId : NodeId}
    {event : Server.Event} {runner : Runner σ Msg} {server : Server}
    (found : service.network.runners.lookup nodeId = some runner)
    (own : (service.server protocol nodeId runner).ofClient event = true)
    (moves : Server.Moves (service.server protocol nodeId runner) event server) :
    Serials protocol (fun other => (sessions other).record other (.client nodeId event))
      ((service.setWaiting nodeId server.waiting).setClients nodeId server.clients) := by
  refine serials.change (fun other different =>
    ⟨rfl, Function.update_of_ne different _ _, Function.update_of_ne different _ _,
    (record_elsewhere _ different).1 event⟩) ?_
  intro last known
  obtain rfl := Option.some.inj (found.symm.trans known)
  have kept := client_keeps own moves
  have serial := serial_step (serials nodeId runner found) moves
  rw [trace_client _ _ own] at serial
  rw [server_setClients, server_setWaiting]
  obtain ⟨node, omnipaxos, waiting, clients⟩ := server
  obtain ⟨rfl, rfl⟩ := kept
  exact serial

/-- A transaction ends, and its node stays as it is. -/
theorem Serials.ended (serials : Serials protocol sessions service) {nodeId : NodeId}
    {client : ClientId} {later : NodeId → Session} (busy : service.clients nodeId client ≠ .idle)
    (others : ∀ other, other ≠ nodeId → later other = sessions other)
    (here : later nodeId = (sessions nodeId).ended client) :
    Serials protocol later (service.setClient nodeId client .idle) := by
  refine serials.change (fun other different =>
    ⟨rfl, rfl, Function.update_of_ne different _ _, others other different⟩) ?_
  intro runner found
  rw [here, Service.setClient, server_setClients]
  exact (serials nodeId runner found).ends busy

theorem serials_step (serials : Serials protocol sessions service)
    (moves : Service.Moves protocol service event after) :
    Serials protocol (fun nodeId => (sessions nodeId).record nodeId event) after := by
  cases moves with
  | network storeless _ _ moves => exact serials.network storeless moves
  | polled asks _ found granted step => exact serials.polled asks found granted step
  | @waits nodeId action request runner result asks free found _ blocked =>
    refine serials.change (fun other (different : other ≠ nodeId) =>
      ⟨rfl, Function.update_of_ne different _ _, rfl, rfl⟩) ?_
    intro last known
    obtain rfl := Option.some.inj (found.symm.trans known)
    rw [server_setWaiting]
    have ready : (service.server protocol nodeId runner).Ready request := by
      rcases request_serves asks with ⟨_, rfl⟩ | ⟨_, rfl⟩ <;> trivial
    exact serial_step (serials nodeId runner found) (.waits free ready blocked)
  | client found _ own moves => exact serials.client found own moves
  | abandoned finishing =>
    refine serials.ended ?_ (fun other different => ((record_elsewhere _ different).2.1 _).1) (if_pos rfl)
    intro idle
    rw [idle] at finishing
    cases finishing
  | @committed nodeId client tx order runner result entry node free found alive inside visits returned =>
    let omniDurability := protocol.append runner.omniDurability entry
    refine serials.change (fun other (different : other ≠ nodeId) =>
      ⟨set_elsewhere _ different rfl, rfl, Function.update_of_ne different _ _,
      (record_elsewhere _ different).2.2 client order⟩) ?_
    intro last known
    obtain rfl := Option.some.inj ((set_self service.network nodeId _).symm.trans known)
    have named : (protocol.omnipaxos runner.omniDurability).currentLeader = some nodeId :=
      (commit_leads returned).trans (congrArg some (serials nodeId runner found).named)
    have serial := ((serials nodeId runner found).commits inside visits returned).observe
      (protocol.omnipaxos omniDurability)
    have recorded : (sessions nodeId).record nodeId (.commit nodeId client order) =
        { (sessions nodeId).ended client with
          commits := (sessions nodeId).commits ++ [(sessions nodeId).calls client] } := if_pos rfl
    rw [recorded]
    show Serial nodeId _
      ((service.setClients nodeId _).server protocol nodeId { runner with node, omniDurability })
    rw [server_setClients]
    simp only [Trace.record, Session.trace, named, if_true] at serial
    exact serial
  | refused free found alive inside returned =>
    refine serials.ended ?_ (fun other different => ((record_elsewhere _ different).2.1 _).2) (if_pos rfl)
    intro idle
    rw [idle] at inside
    cases inside

omit [BuildProfile] in
theorem commits_kept {nodeId other : NodeId} (session : Session) :
    (∀ event, (session.record other (.client nodeId event)).commits = session.commits) ∧
    ∀ client, (session.record other (.abandon nodeId client)).commits = session.commits ∧
      (session.record other (.refuse nodeId client)).commits = session.commits := by
  have kept {session later : Session} {mine : Prop} [Decidable mine]
      (same : later.commits = session.commits) :
      (if mine then later else session).commits = session.commits := by
    split
    · exact same
    · rfl
  refine ⟨?_, fun client => ⟨kept rfl, kept rfl⟩⟩
  intro event
  cases event with
  | use | drop | release => exact kept rfl
  | observe | call | resume | finish | commit => rfl

omit [BuildProfile] in
/-- A transaction that is handed in is the one that its calls would make at once. -/
theorem execute_of_commit {node after : Node} {omnipaxos : OmniPaxos} {tx : ClientTx}
    {result : TxResult} {entry : DatabaseLogEntry} (sound : Sound node.datastore)
    (returned : node.commitMutTx omnipaxos ⟨writes tx.calls, node.datastore⟩ tx.order =
      .ok (result, entry, after)) :
    node.execute omnipaxos tx = some (.ok (result, entry, after)) := by
  have ran : node.datastore.beginMutTx.run tx.calls = some ⟨writes tx.calls, node.datastore⟩ :=
    run_eq node.datastore.beginMutTx sound tx.calls
  simp only [Node.execute, Node.beginMutTx, isLeader_of (commit_leads returned), if_true, ran,
    Option.bind_eq_bind, Option.bind_some]
  exact congrArg some returned

/-- A step is one of the network, or leaves the network alone; a commit hands in the calls
made since its transaction began. -/
theorem refines_step (serials : Serials protocol sessions service)
    (moves : Service.Moves protocol service event after) :
    (after.network = service.network ∧
      ∀ nodeId, ((sessions nodeId).record nodeId event).commits = (sessions nodeId).commits) ∨
    ∃ step, Network.Moves protocol service.network step after.network ∧ ∀ nodeId,
      ((sessions nodeId).record nodeId event).commits =
        (sessions nodeId).commits ++ (commitsOf nodeId [step]).map ClientTx.calls := by
  cases moves with
  | @network step _ storeless _ _ moves =>
    refine .inr ⟨step, moves, ?_⟩
    intro nodeId
    rw [commitsOf_idle storeless, List.map_nil, List.append_nil]
    rfl
  | polled asks _ found _ step =>
    refine .inr ⟨_, .runner found step, ?_⟩
    intro nodeId
    rcases request_serves asks with ⟨rfl, _⟩ | ⟨rfl, _⟩ <;> exact (List.append_nil _).symm
  | waits => exact .inl ⟨rfl, fun _ => rfl⟩
  | client => exact .inl ⟨rfl, fun _ => (commits_kept _).1 _⟩
  | abandoned => exact .inl ⟨rfl, fun _ => ((commits_kept _).2 _).1⟩
  | refused => exact .inl ⟨rfl, fun _ => ((commits_kept _).2 _).2⟩
  | @committed nodeId client tx order runner result entry node _ found alive inside visits returned =>
    have serial := serials nodeId runner found
    have opened : Fits ((sessions nodeId).calls client) runner.node.datastore (.committing tx) :=
      inside ▸ serial.fits client
    obtain rfl : tx = _ := opened
    obtain ⟨operations, ran, _⟩ := serial.store
    let handed : ClientTx := ⟨(sessions nodeId).calls client, order, visits⟩
    have executed := @execute_of_commit _ _ _ handed _ _ (Transaction.sound_run ran) returned
    refine .inr ⟨.runner nodeId (.commit handed), .runner found (.commit alive executed), ?_⟩
    intro other
    by_cases mine : nodeId = other
    · subst mine
      simp [Session.record, Session.ended, commitsOf, handed]
    · simp [Session.record, commitsOf, mine]

end Steps

section Runs
variable [BuildProfile] {protocol : Protocol σ Msg} {servers : List NodeId} {start : Network σ Msg}
  {service : Service σ Msg}
  {events : List Service.Event}

theorem serials_new (spawned : spawnNodes protocol servers = some start) :
    Serials protocol (fun nodeId => sessionOf nodeId []) (.new start) := by
  intro nodeId runner found
  obtain ⟨_, _, rfl⟩ := spawn_found spawned found
  exact (serial_new nodeId).observe _

theorem refines_on {before : Service σ Msg} {sessions : NodeId → Session}
    (serials : Serials protocol sessions before)
    (run : Run (Service.Moves protocol) before events service) :
    Serials protocol (fun nodeId => events.foldl (Session.record nodeId) (sessions nodeId)) service ∧
    ∃ steps, Run (Network.Moves protocol) before.network steps service.network ∧
      ∀ nodeId, (events.foldl (Session.record nodeId) (sessions nodeId)).commits =
        (sessions nodeId).commits ++ (commitsOf nodeId steps).map ClientTx.calls := by
  induction run with
  | nil => exact ⟨serials, [], .nil, fun _ => (List.append_nil _).symm⟩
  | @snoc earlier _ event _ _ last ih =>
    obtain ⟨held, steps, followed, commits⟩ := ih
    have later := serials_step held last
    simp only [List.foldl_append, List.foldl_cons, List.foldl_nil]
    refine ⟨later, ?_⟩
    rcases refines_step held last with ⟨same, kept⟩ | ⟨step, moves, handed⟩
    · refine ⟨steps, same ▸ followed, ?_⟩
      intro nodeId
      rw [kept, commits]
    · refine ⟨steps ++ [step], followed.snoc moves, ?_⟩
      intro nodeId
      rw [handed, commits, commitsOf_snoc, List.map_append, List.append_assoc]

theorem refines_run (spawned : spawnNodes protocol servers = some start)
    (run : Run (Service.Moves protocol) (.new start) events service) :
    Serials protocol (fun nodeId => sessionOf nodeId events) service ∧
    ∃ steps, Run (Network.Moves protocol) start steps service.network ∧
      ∀ nodeId, (commitsOf nodeId steps).map ClientTx.calls = (sessionOf nodeId events).commits := by
  obtain ⟨serials, steps, followed, commits⟩ := refines_on (serials_new spawned) run
  exact ⟨serials, steps, followed, fun nodeId => (commits nodeId).symm⟩

/-- With its locks, its open transactions and the calls that wait for them, the
program does what the network does whose transactions are single steps: each node
commits the calls that its clients made, and no transaction sees another one. -/
theorem service_refines_network (spawned : spawnNodes protocol servers = some start)
    (run : Run (Service.Moves protocol) (.new start) events service) :
    (∃ steps, Run (Network.Moves protocol) start steps service.network ∧
      ∀ nodeId, (commitsOf nodeId steps).map ClientTx.calls = (sessionOf nodeId events).commits) ∧
    ∀ nodeId runner, service.network.runners.lookup nodeId = some runner →
      Isolated (sessionOf nodeId events).calls (service.server protocol nodeId runner) := by
  obtain ⟨serials, refined⟩ := refines_run spawned run
  refine ⟨refined, ?_⟩
  intro nodeId runner found
  obtain ⟨writes, reads⟩ := (serials nodeId runner found).answers
  exact ⟨fun client tx inside => (writes client tx inside).1,
    fun client tx inside => (writes client tx inside).2, reads⟩

end Runs

/-- A writer waits for a reader while node 2 goes on, and commits when the reader drops its
transaction. -/
theorem service_refines_network_pair : ∃ start events service steps, spawnNodes pair [1, 2] = some start ∧
    Run (@Service.Moves _ _ ⟨true⟩ pair) (.new start) events service ∧
    .client 1 (.drop 1) ∈ events ∧ .client 1 .resume ∈ events ∧ .network (.runner 2 .check) ∈ events ∧
    Run (@Network.Moves _ _ ⟨true⟩ pair) start steps service.network ∧
    (commitsOf 1 steps).map ClientTx.calls = [[.set "a" "1"]] := by
  let : BuildProfile := ⟨true⟩
  obtain ⟨start, spawned, first, second, _⟩ := @spawn_two _ _ pair _ _ rfl rfl
  have starts : Run (Service.Moves pair) (.new start) ([] ++ [.network (.runner 1 .start)]) _ :=
    Run.nil.snoc
      (.network rfl (fun _ _ => rfl) (fun _ _ _ waits => by cases waits) (.runner first (.start rfl)))
  have checks := starts.snoc (.network rfl (fun _ _ => rfl) (fun _ _ _ waits => by cases waits)
    (.runner (set_self _ _ _) (.check rfl)))
  have wakes := checks.snoc (.network rfl (fun _ _ => rfl) (fun _ _ _ waits => by cases waits)
    (.runner (set_self _ _ _) (.tickInterval rfl)))
  have elects := wakes.snoc (.network rfl (fun _ _ => rfl) (fun _ _ _ waits => by cases waits)
    (.runner (set_self _ _ _) (@RunnerStep.called _ _ _ pair _ .tick _ rfl)))
  have reads := elects.snoc (.client (set_self _ _ _) (by simp) (by exact rfl)
    (.served rfl (by exact rfl) (Watermark.free_of_idle (fun _ => rfl) (.beginTx 1 .memory)) rfl))
  have waits := reads.snoc (show Service.Moves pair _ (.client 1 (.call (.beginMutTx 2))) _ from
    .client (set_self _ _ _) (by simp)
      rfl (.waits rfl (by exact rfl) ⟨1, .read, .write, rfl, .head _, rfl⟩))
  have startsElsewhere :=
    waits.snoc
      (.network rfl (fun _ known => by cases known; rfl) (fun _ _ task waits => by cases task; cases waits)
    (.runner (set_elsewhere _ (by decide) (set_elsewhere _ (by decide)
      (set_elsewhere _ (by decide) (set_elsewhere _ (by decide) second)))) (.start rfl)))
  have goes :=
    startsElsewhere.snoc
      (.network rfl (fun _ known => by cases known; rfl) (fun _ _ task waits => by cases task; cases waits)
    (.runner (set_self _ _ _) (.check rfl)))
  have drops := goes.snoc (show Service.Moves pair _ (.client 1 (.drop 1)) _ from
    .client (set_elsewhere _ (by decide) (set_elsewhere _ (by decide) (set_self _ _ _)))
      (fun locks => by cases locks) rfl
      (.dropped rfl rfl))
  have idle (client : ClientId) : (Function.update (Function.update (fun _ : ClientId => Client.idle) 1
      (.reading ((Node.new 1).beginTx .memory))) 1 .idle) client = .idle := by
    rw [Function.update_idem, Function.update_eq_self_iff.mpr rfl]
  have resumes := drops.snoc (show Service.Moves pair _ (.client 1 .resume) _ from
    .client (set_elsewhere _ (by decide) (set_elsewhere _ (by decide) (set_self _ _ _)))
      (fun locks => by cases locks) rfl
      (.resumed rfl (Watermark.free_of_idle idle (.beginMutTx 2)) rfl))
  have uses := resumes.snoc (show Service.Moves pair _ (.client 1 (.use 2 (.set "a" "1"))) _ from
    .client (set_elsewhere _ (by decide) (set_elsewhere _ (by decide) (set_self _ _ _)))
      (fun locks => by cases locks) rfl
      (.used rfl rfl))
  have finishes := uses.snoc (show Service.Moves pair _ (.client 1 (.finish 2)) _ from
    .client (set_elsewhere _ (by decide) (set_elsewhere _ (by decide) (set_self _ _ _)))
      (fun locks => by cases locks) rfl
      (.finishWrite rfl))
  have commits :=
    finishes.snoc (show Service.Moves pair _ (.commit 1 2 (AList.insert "a" (.insert "1") ∅)) _ from
    .committed rfl (set_elsewhere _ (by decide) (set_elsewhere _ (by decide) (set_self _ _ _)))
      (by simp) rfl (by exact rfl) rfl)
  obtain ⟨⟨steps, followed, made⟩, _⟩ := service_refines_network spawned commits
  exact ⟨start, _, _, steps, spawned, commits, by simp, by simp, by simp, followed, made 1⟩

end OmniSpacetimeDb.Proofs.ServiceNetwork
