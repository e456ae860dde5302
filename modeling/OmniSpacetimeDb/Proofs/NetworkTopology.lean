import OmniSpacetimeDb.Proofs.NetworkDelivery

/-! Who is connected to whom. The calls of `delete_connections` and
`reconnect_nodes` decide it, and a connection that is cut carries at most what
the sender already waits with. -/

namespace OmniSpacetimeDb.Proofs.NetworkTopology
open Foundations Datastore Durability Cluster NetworkTraffic NetworkDelivery
variable {σ Msg : Type}

/-- Which connections are cut, by the node that would send over them. -/
abbrev Cuts := NodeId → NodeId → Bool

def sever (cuts : Cuts) : Network.Event → Cuts
  | .deleteConnections nodeA nodeB => fun nodeId other =>
    cuts nodeId other || decide (nodeId = nodeA ∧ other = nodeB) || decide (nodeId = nodeB ∧ other = nodeA)
  | .reconnectNodes _ => fun _ _ => false
  | _ => cuts

/-- What the calls so far ask for. -/
def severed (events : List Network.Event) : Cuts := events.foldl sever fun _ _ => false

def act (cuts : Cuts) : Stroke → Cuts
  | .cut nodeId other => fun first second => cuts first second || decide (first = nodeId ∧ second = other)
  | .restore nodeId other => fun first second =>
      cuts first second && !decide (first = nodeId ∧ second = other)

def peer (servers : List NodeId) (nodeId other : NodeId) : Bool := decide (other ∈ servers ∧ other ≠ nodeId)

/-- The two maps of a node share out its peers. -/
structure Wired (servers : List NodeId) (cuts : Cuts) (nodeId : NodeId) (runner : Runner σ Msg) : Prop where
  connections : ∀ other, runner.connections.lookup other =
    if peer servers nodeId other && !cuts nodeId other then some other else none
  disconnected : ∀ other, runner.disconnectedConnections.lookup other =
    if peer servers nodeId other && cuts nodeId other then some other else none

section Strokes
variable {servers : List NodeId} {cuts : Cuts} {nodeId : NodeId} {runner : Runner σ Msg}

theorem Wired.congr {others : Cuts} (wired : Wired servers cuts nodeId runner)
    (same : ∀ other, peer servers nodeId other = true → others nodeId other = cuts nodeId other) :
    Wired servers others nodeId runner := by
  refine ⟨?_, ?_⟩ <;> intro other
  · rw [wired.connections]
    cases peers : peer servers nodeId other with
    | false => rfl
    | true => rw [same other peers]
  · rw [wired.disconnected]
    cases peers : peer servers nodeId other with
    | false => rfl
    | true => rw [same other peers]

theorem Wired.cut (wired : Wired servers cuts nodeId runner) (other : NodeId) :
    Wired servers (act cuts (.cut nodeId other)) nodeId (runner.cut other) := by
  have erased : ∀ key, (runner.connections.erase other).lookup key =
      if peer servers nodeId key && !(act cuts (.cut nodeId other)) nodeId key then some key else none := by
    intro key
    rw [HashMap.lookup_erase_eq, wired.connections]
    by_cases same : key = other <;> simp [act, same]
  cases known : runner.connections.lookup other with
  | some connection =>
    rw [Runner.cut, known]
    refine ⟨erased, ?_⟩
    intro key
    have connected := (wired.connections other).symm.trans known
    simp only [Option.ite_none_right_eq_some, Bool.and_eq_true, Option.some.injEq] at connected
    rw [HashMap.lookup_insert_eq, wired.disconnected, ← connected.2]
    by_cases same : key = other <;> simp [act, same, connected.1.1]
  | none =>
    rw [Runner.cut, known]
    refine ⟨erased, ?_⟩
    intro key
    have unconnected := (wired.connections other).symm.trans known
    rw [wired.disconnected]
    by_cases same : key = other
    · subst key
      cases peers : peer servers nodeId other <;> simp_all [act]
    · simp [act, same]

theorem Wired.restore (wired : Wired servers cuts nodeId runner) (other : NodeId) :
    Wired servers (act cuts (.restore nodeId other)) nodeId (runner.restore other) := by
  cases known : runner.disconnectedConnections.lookup other with
  | some connection =>
    rw [Runner.restore, known]
    have cut := (wired.disconnected other).symm.trans known
    simp only [Option.ite_none_right_eq_some, Bool.and_eq_true, Option.some.injEq] at cut
    refine ⟨?_, ?_⟩ <;> intro key
    · rw [HashMap.lookup_insert_eq, wired.connections, ← cut.2]
      by_cases same : key = other <;> simp [act, same, cut.1.1]
    · rw [HashMap.lookup_erase_eq, wired.disconnected]
      by_cases same : key = other <;> simp [act, same]
  | none =>
    rw [Runner.restore, known]
    apply wired.congr
    intro key peers
    have uncut := (wired.disconnected other).symm.trans known
    by_cases same : key = other
    · subst key
      simp_all [act]
    · simp [act, same]

theorem Wired.stroke (stroke : Stroke) (wired : Wired servers cuts stroke.nodeId runner) :
    Wired servers (act cuts stroke) stroke.nodeId (runner.stroke stroke) := by
  cases stroke with
  | cut nodeId other => exact wired.cut other
  | restore nodeId other => exact wired.restore other

/-- A stroke at one node leaves the cuts of the others alone. -/
theorem act_elsewhere (cuts : Cuts) {stroke : Stroke} {nodeId : NodeId}
    (different : nodeId ≠ stroke.nodeId) (other : NodeId) :
    act cuts stroke nodeId other = cuts nodeId other := by
  cases stroke with
  | cut changed key =>
    have apart : nodeId ≠ changed := different
    simp [act, apart]
  | restore changed key =>
    have apart : nodeId ≠ changed := different
    simp [act, apart]

theorem restores_act (cuts : Cuts) (entries : List (NodeId × NodeId)) (nodeId other : NodeId) :
    (entries.map fun entry => Stroke.restore entry.1 entry.2).foldl act cuts nodeId other =
      (cuts nodeId other && !decide ((nodeId, other) ∈ entries)) := by
  induction entries generalizing cuts with
  | nil => simp
  | cons entry entries ih =>
    rw [List.map_cons, List.foldl_cons, ih]
    obtain ⟨first, second⟩ := entry
    by_cases same : nodeId = first ∧ other = second
    · obtain ⟨rfl, rfl⟩ := same
      simp [act]
    · have apart : (nodeId, other) ≠ (first, second) := fun equal => same (Prod.mk.inj equal)
      simp [act, same, apart]

end Strokes

section Runs
variable [BuildProfile] {protocol : Protocol σ Msg} {servers : List NodeId}
  {start network after : Network σ Msg}
  {events : List Network.Event} {event : Network.Event}

/-- Once the strokes of a call that is under way are done, what is cut is what the calls ask for. -/
structure Topology (servers : List NodeId) (events : List Network.Event) (cuts : Cuts)
    (network : Network σ Msg) : Prop where
  nodes : ∀ nodeId, nodeId ∈ network.runners ↔ nodeId ∈ servers
  wired : ∀ nodeId runner, network.runners.lookup nodeId = some runner → Wired servers cuts nodeId runner
  asked : ∀ nodeId ∈ servers, ∀ other, peer servers nodeId other = true →
    network.pending.foldl act cuts nodeId other = severed events nodeId other

omit [BuildProfile] in
theorem topology_spawned (spawned : spawnNodes protocol servers = some start) :
    Topology servers [] (fun _ _ => false) start := by
  obtain ⟨_, pending, each, _⟩ := spawn_spawned spawned
  refine ⟨?_, ?_, ?_⟩
  · intro nodeId
    constructor
    · intro member
      obtain ⟨runner, found⟩ := Finmap.mem_iff.mp member
      exact (spawn_found spawned found).1
    · intro member
      obtain ⟨runner, found, _⟩ := each nodeId member
      exact Finmap.mem_of_lookup_eq_some found
  · intro nodeId runner found
    obtain ⟨_, _, rfl⟩ := spawn_found spawned found
    refine ⟨?_, ?_⟩ <;> intro other
    · rw [HashMap.lookup_erase_eq, senders_lookup]
      by_cases self : other = nodeId <;> simp [peer, self]
    · rw [Bool.and_false]
      rfl
  · intro nodeId _ other _
    rw [pending]
    rfl

theorem changes_connections {nodeId : NodeId} {runner changed : Runner σ Msg}
    (changes : Changes protocol event nodeId runner changed)
    (elsewhere : ∀ stroke, event ≠ .stroke stroke) :
    changed.connections = runner.connections ∧
      changed.disconnectedConnections = runner.disconnectedConnections := by
  cases changes with
  | task step =>
    cases step with
    | called called => cases call_cases called <;> exact ⟨rfl, rfl⟩
    | stop | commit | start | check | tickInterval | msgHandlingInterval | panicked | look | skip | finish
    | receive | leave => exact ⟨rfl, rfl⟩
  | sent | accepted => exact ⟨rfl, rfl⟩
  | stroke stroke => exact absurd rfl (elsewhere stroke)

theorem Topology.quiet {cuts : Cuts} (topology : Topology servers events cuts network)
    (moves : Network.Moves protocol network event after) (elsewhere : ∀ stroke, event ≠ .stroke stroke) :
    ∀ nodeId runner, after.runners.lookup nodeId = some runner → Wired servers cuts nodeId runner := by
  refine moves_keep _ topology.wired ?_ moves
  intro nodeId runner changed wired changes
  obtain ⟨connections, disconnected⟩ := changes_connections changes elsewhere
  exact ⟨connections ▸ wired.connections, disconnected ▸ wired.disconnected⟩

omit [BuildProfile] in
theorem severed_snoc (events : List Network.Event) (event : Network.Event) :
    severed (events ++ [event]) = sever (severed events) event := by
  rw [severed, List.foldl_append]
  rfl

omit [BuildProfile] in
theorem severed_comm (events : List Network.Event) :
    ∀ nodeId other, severed events nodeId other = severed events other nodeId := by
  induction events using List.reverseRecOn with
  | nil => exact fun _ _ => rfl
  | append_singleton events event ih =>
    intro nodeId other
    rw [severed_snoc]
    cases event with
    | deleteConnections nodeA nodeB =>
      simp only [sever, ih nodeId other]
      grind
    | reconnectNodes entries => rfl
    | runner | deliver | stroke => exact ih nodeId other

theorem topology_step {cuts : Cuts} (topology : Topology servers events cuts network)
    (moves : Network.Moves protocol network event after) :
    ∃ cuts, Topology servers (events ++ [event]) cuts after := by
  have nodes : ∀ nodeId, nodeId ∈ after.runners ↔ nodeId ∈ servers :=
    fun nodeId => (moves_nodes moves nodeId).trans (topology.nodes nodeId)
  have asked := topology.asked
  have wired := topology.quiet moves
  cases moves with
  | runner found step =>
    refine ⟨cuts, nodes, wired nofun, ?_⟩
    rw [severed_snoc]
    exact asked
  | delivered found awaits receives live room =>
    refine ⟨cuts, nodes, wired nofun, ?_⟩
    rw [severed_snoc]
    exact asked
  | lost found awaits receives closed =>
    refine ⟨cuts, nodes, wired nofun, ?_⟩
    rw [severed_snoc]
    exact asked
  | deleteConnections nodeA nodeB idle =>
    refine ⟨cuts, nodes, topology.wired, ?_⟩
    intro nodeId member other peers
    have before := asked nodeId member other peers
    rw [idle] at before
    simp only [severed_snoc, sever, ← before]
    rfl
  | @reconnectNodes entries idle lists =>
    refine ⟨cuts, nodes, topology.wired, ?_⟩
    intro nodeId member other peers
    rw [severed_snoc, sever, restores_act]
    cases cut : cuts nodeId other with
    | false => rfl
    | true =>
      obtain ⟨runner, found⟩ := Finmap.mem_iff.mp ((topology.nodes nodeId).mpr member)
      have kept : runner.disconnectedConnections.lookup other = some other := by
        rw [(topology.wired nodeId runner found).disconnected, peers, cut]
        rfl
      have listed := (lists nodeId other).mpr ⟨runner, found, Finmap.mem_of_lookup_eq_some kept⟩
      simp [listed]
  | @stroke stroke rest before next found alive =>
    refine ⟨act cuts stroke, nodes, ?_, ?_⟩
    · intro nodeId runner known
      obtain ⟨old, knownOld, here, elsewhere⟩ := found_set found known
      by_cases same : nodeId = stroke.nodeId
      · obtain ⟨rfl, rfl⟩ := here same
        subst same
        exact (topology.wired _ _ found).stroke stroke
      · rw [elsewhere same]
        exact (topology.wired nodeId old knownOld).congr fun other _ => act_elsewhere cuts same other
    · intro nodeId member other peers
      have before := asked nodeId member other peers
      rw [next] at before
      rw [severed_snoc]
      exact before

theorem topology_run (spawned : spawnNodes protocol servers = some start)
    (run : Run (Network.Moves protocol) start events network) :
    ∃ cuts, Topology servers events cuts network := by
  induction run with
  | nil => exact ⟨_, topology_spawned spawned⟩
  | snoc before last ih =>
    obtain ⟨cuts, topology⟩ := ih
    exact topology_step topology last

/-- A cluster starts up exactly on a list without repetition, fully connected.
Between two calls the connections are those that the calls have asked for, both
ways, and what is cut is kept for a reconnection. -/
theorem connections_follow_calls (spawned : spawnNodes protocol servers = some start)
    (run : Run (Network.Moves protocol) start events network) (idle : network.pending = []) :
    servers.Nodup ∧ (∀ nodeId other, severed events nodeId other = severed events other nodeId) ∧
    ∀ nodeId ∈ servers, ∃ runner, network.runners.lookup nodeId = some runner ∧ ∀ other,
      runner.connections.lookup other =
        (if other ∈ servers ∧ other ≠ nodeId ∧ severed events nodeId other = false then some other
          else none) ∧
      runner.disconnectedConnections.lookup other =
        (if other ∈ servers ∧ other ≠ nodeId ∧ severed events nodeId other = true then some other
          else none) := by
  obtain ⟨cuts, topology⟩ := topology_run spawned run
  refine ⟨(spawn_spawned spawned).1, severed_comm events, ?_⟩
  intro nodeId member
  obtain ⟨runner, found⟩ := Finmap.mem_iff.mp ((topology.nodes nodeId).mpr member)
  refine ⟨runner, found, ?_⟩
  intro other
  have wired : Wired servers (severed events) nodeId runner := by
    apply (topology.wired nodeId runner found).congr
    intro other peers
    have asked := topology.asked nodeId member other peers
    rw [idle] at asked
    exact asked.symm
  rw [wired.connections, wired.disconnected]
  simp only [peer, Bool.and_eq_true, decide_eq_true_eq, Bool.not_eq_true', and_assoc, and_self]

/-- Without a connection to a node its runner does not start to wait for it. -/
theorem awaits_stay {nodeId nodeB : NodeId} {runner changed : Runner σ Msg} {message : Msg}
    {outMessages : List Msg} (addressed : Addressed protocol servers runner)
    (unconnected : runner.connections.lookup nodeB = none)
    (changes : Changes protocol event nodeId runner changed)
    (awaits : changed.phase = .awaiting nodeB message outMessages) :
    runner.phase = .awaiting nodeB message outMessages := by
  cases changes with
  | task step =>
    cases step with
    | stop | commit => exact awaits
    | check =>
      cases running : runner.isRunning <;> simp [running] at awaits
    | called called => cases call_cases called <;> cases awaits
    | start | tickInterval | msgHandlingInterval | panicked | skip | finish | receive | leave =>
      cases awaits
    | look sends connected =>
      cases awaits
      obtain ⟨rfl, _⟩ := addressed.connections _ _ connected
      rw [connected] at unconnected
      cases unconnected
  | sent => cases awaits
  | accepted => exact awaits
  | stroke stroke =>
    rw [stroke_phase] at awaits
    exact awaits

theorem cut_stays {nodeId nodeA nodeB : NodeId} {runner changed : Runner σ Msg}
    (unrestored : event ≠ .stroke (.restore nodeA nodeB))
    (unconnected : nodeId = nodeA → runner.connections.lookup nodeB = none)
    (changes : Changes protocol event nodeId runner changed) :
    nodeId = nodeA → changed.connections.lookup nodeB = none := by
  intro same
  have before := unconnected same
  by_cases quiet : ∀ stroke, event ≠ .stroke stroke
  · rw [(changes_connections changes quiet).1]
    exact before
  · cases changes with
    | task | sent | accepted => exact absurd nofun quiet
    | stroke stroke alive =>
      cases stroke with
      | cut cutNode other =>
        have erased : (runner.connections.erase other).lookup nodeB = none := by
          rw [HashMap.lookup_erase_eq, before, ite_self]
        simp only [Runner.stroke, Runner.cut]
        split <;> exact erased
      | restore restored other =>
        have different : nodeB ≠ other := by
          rintro rfl
          exact unrestored (congrArg (fun node => Network.Event.stroke (.restore node nodeB)) same)
        simp only [Runner.stroke, Runner.restore]
        split
        · rw [Finmap.lookup_insert_of_ne _ different]
          exact before
        · exact before

/-- A sender that is cut off, and waits for the receiver only if it did so before. -/
structure CutOff (protocol : Protocol σ Msg) (servers : List NodeId) (nodeB : NodeId)
    (before runner : Runner σ Msg) : Prop where
  addressed : Addressed protocol servers runner
  unconnected : runner.connections.lookup nodeB = none
  waits : ∀ message outMessages, runner.phase = .awaiting nodeB message outMessages →
    before.phase = .awaiting nodeB message outMessages

theorem cutOff_after {nodeA nodeB : NodeId} {sender last : Runner σ Msg}
    (unrestored : event ≠ .stroke (.restore nodeA nodeB))
    (cutOff : CutOff protocol servers nodeB sender sender)
    (moves : Network.Moves protocol network event after)
    (known : network.runners.lookup nodeA = some sender)
    (found : after.runners.lookup nodeA = some last) : CutOff protocol servers nodeB sender last := by
  refine moves_keep (fun nodeId runner => nodeId = nodeA → CutOff protocol servers nodeB sender runner)
    ?_ ?_ moves nodeA last found rfl
  · intro nodeId runner present same
    subst same
    obtain rfl := Option.some.inj (known.symm.trans present)
    exact cutOff
  · intro nodeId runner changed valid changes same
    have held := valid same
    refine ⟨held.addressed.changes changes,
      cut_stays unrestored (fun _ => held.unconnected) changes same, ?_⟩
    exact fun message outMessages awaits =>
      held.waits _ _ (awaits_stay held.addressed held.unconnected changes awaits)

/-- What has crossed a link since it was cut: nothing, or what the sender waited with. -/
inductive Crossed (nodeA nodeB : NodeId) (sender receiver last final : Runner σ Msg) : Prop
  | nothing (same : acceptedFrom nodeA final.accepted = acceptedFrom nodeA receiver.accepted)
      (waits : ∀ message outMessages, last.phase = .awaiting nodeB message outMessages →
      sender.phase = .awaiting nodeB message outMessages)
  | awaited {message : Msg} {outMessages : List Msg}
      (waited : sender.phase = .awaiting nodeB message outMessages)
      (crossed : acceptedFrom nodeA final.accepted = acceptedFrom nodeA receiver.accepted ++ [message])
      (done : ∀ message outMessages, last.phase ≠ .awaiting nodeB message outMessages)

/-- Over a connection that is cut and not restored, at most one more message
crosses: the one for which the sender had looked up the channel before the cut. -/
theorem cut_nodes_pass_one_message {nodeA nodeB : NodeId} {sender receiver last final : Runner σ Msg}
    {more : List Network.Event} {later : Network σ Msg}
    (spawned : spawnNodes protocol servers = some start)
    (run : Run (Network.Moves protocol) start events network)
    (foundA : network.runners.lookup nodeA = some sender)
    (foundB : network.runners.lookup nodeB = some receiver)
    (unconnected : sender.connections.lookup nodeB = none)
    (further : Run (Network.Moves protocol) network more later)
    (unrestored : .stroke (.restore nodeA nodeB) ∉ more)
    (lastA : later.runners.lookup nodeA = some last) (lastB : later.runners.lookup nodeB = some final) :
    acceptedFrom nodeA final.accepted = acceptedFrom nodeA receiver.accepted ∨ ∃ message outMessages,
      sender.phase = .awaiting nodeB message outMessages ∧
      acceptedFrom nodeA final.accepted = acceptedFrom nodeA receiver.accepted ++ [message] := by
  have crossing : last.connections.lookup nodeB = none ∧ Crossed nodeA nodeB sender receiver last final := by
    induction further generalizing last final with
    | nil =>
      obtain rfl := Option.some.inj (foundA.symm.trans lastA)
      obtain rfl := Option.some.inj (foundB.symm.trans lastB)
      exact ⟨unconnected, .nothing rfl fun _ _ => id⟩
    | snoc before move ih =>
      rw [List.mem_append, List.mem_singleton, not_or] at unrestored
      have kept := network_kept spawned (run.append before)
      obtain ⟨oldSender, oldReceiver, event, knownA, knownB, step, _, delivers⟩ :=
        link_moves (fun nodeId runner found => (kept nodeId runner found).1) move lastA lastB
      obtain ⟨cut, crossed⟩ := ih unrestored.1 knownA knownB
      have addressed := (kept nodeA oldSender knownA).1
      have cutOff := cutOff_after (Ne.symm unrestored.2) ⟨addressed, cut, fun _ _ => id⟩ move knownA lastA
      refine ⟨cutOff.unconnected, ?_⟩
      by_cases delivered : event = .delivered
      · subst delivered
        obtain ⟨message, outMessages, awaits, moved⟩ := delivers rfl
        have head : toward protocol nodeB (NetworkDelivery.outMessages oldSender.phase) =
            message :: toward protocol nodeB outMessages := by
          rw [awaits, NetworkDelivery.outMessages, toward,
            List.filter_cons_of_pos (by simpa using (addressed.awaits _ _ _ awaits).1.symm)]
          rfl
        cases crossed with
        | awaited _ _ done => exact absurd awaits (done message outMessages)
        | nothing same waits =>
          refine .awaited (waits message outMessages awaits) ?_ ?_
          · rw [← same]
            exact Link.delivered_head step head
          · intro _ _ awaits'
            rw [moved] at awaits'
            cases awaits'
      · have quiet : acceptedFrom nodeA _ = acceptedFrom nodeA _ := (Link.accepted_iff step).mp delivered
        cases crossed with
        | nothing same waits =>
          exact .nothing (quiet.trans same) fun message outMessages awaits =>
            waits _ _ (cutOff.waits _ _ awaits)
        | awaited waited crossed done =>
          exact .awaited waited (quiet.trans crossed) fun message outMessages awaits =>
            done _ _ (cutOff.waits _ _ awaits)
  obtain ⟨_, same | ⟨waited, crossed⟩⟩ := crossing
  · exact .inl same
  · exact .inr ⟨_, _, waited, crossed⟩

end Runs

/-- Two nodes whose connection is cut before they send anything. -/
theorem greetings_cut [BuildProfile] :
    ∃ start network, spawnNodes (greetings none 1) [1, 2] = some start ∧
    Run (Network.Moves (greetings none 1)) start
      [.deleteConnections 1 2, .stroke (.cut 1 2), .stroke (.cut 2 1)] network ∧
    network.pending = [] ∧ network.runners.lookup 1 = some ((newcomer 1 [2]).cut 2) ∧
    network.runners.lookup 2 = some ((newcomer 2 [1]).cut 1) := by
  obtain ⟨start, spawned, first, second, _⟩ := greetings_spawn none 1
  have idle := (spawn_spawned spawned).2.1
  have called : Run (Network.Moves (greetings none 1)) start ([] ++ [_]) _ :=
    Run.nil.snoc (.deleteConnections 1 2 idle)
  have cut := called.snoc (@Network.Moves.stroke _ _ _ _ _ (.cut 1 2) _ _ rfl first (by simp [newcomer]))
  have run :=
    cut.snoc (@Network.Moves.stroke _ _ _ _ _
      (.cut 2 1) _ _ rfl (set_elsewhere _ (by decide) second) (by simp [newcomer]))
  exact ⟨start, _, spawned, run, rfl, set_elsewhere _ (by decide) (set_self _ _ _), set_self _ _ _⟩

theorem connections_follow_calls_cut :
    ∃ start events network runner, spawnNodes (greetings none 1) [1, 2] = some start ∧
    Run (@Network.Moves _ _ ⟨true⟩ (greetings none 1)) start events network ∧
    network.runners.lookup 1 = some runner ∧
    runner.connections.lookup 2 = none ∧ runner.disconnectedConnections.lookup 2 = some 2 := by
  let : BuildProfile := ⟨true⟩
  obtain ⟨start, network, spawned, run, idle, _⟩ := greetings_cut
  obtain ⟨_, _, each⟩ := connections_follow_calls spawned run idle
  obtain ⟨runner, found, connections⟩ := each 1 List.mem_cons_self
  obtain ⟨connected, kept⟩ := connections 2
  exact ⟨start, _, network, runner, spawned, run, found, connected, kept⟩

theorem cut_nodes_pass_one_message_poll :
    ∃ start network later sender final more, spawnNodes (greetings none 1) [1, 2] = some start ∧
    network.runners.lookup 1 = some sender ∧ sender.connections.lookup 2 = none ∧
    Run (@Network.Moves _ _ ⟨true⟩ (greetings none 1)) network more later ∧ .runner 1 .look ∈ more ∧
    later.runners.lookup 2 = some final ∧ acceptedFrom 1 final.accepted = [] := by
  let : BuildProfile := ⟨true⟩
  obtain ⟨start, network, spawned, run, _, first, second⟩ := greetings_cut
  obtain ⟨polled, polls, sends, others⟩ := @greetings_poll _ none 1 _ _ _ first rfl rfl rfl
  have further := polls.snoc (.runner sends (@RunnerStep.skip _ _ _ (greetings none 1) _ 2 [] rfl rfl))
  have different : (2 : NodeId) ≠ 1 := by decide
  have target := (others 2 different).trans second
  have crossed := cut_nodes_pass_one_message spawned run first second rfl further (by simp)
    (set_self _ _ _) (set_elsewhere _ different target)
  refine ⟨start, network, _, _, _, _, spawned, first, rfl,
    further, by simp, set_elsewhere _ different target, ?_⟩
  rcases crossed with same | ⟨_, _, awaits, _⟩
  · exact same
  · cases awaits

end OmniSpacetimeDb.Proofs.NetworkTopology
