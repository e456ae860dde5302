import OmniSpacetimeDb.Cluster.Network
import OmniSpacetimeDb.Foundations.Link

/-! What one move of the network does to one runner, and what every runner
therefore keeps: its mailbox in order, and each link to it a link that hands
over in order. -/

namespace OmniSpacetimeDb.Proofs.NetworkTraffic
open Foundations Datastore Durability Cluster
variable {σ Msg : Type}

section Spawn
variable {protocol : Protocol σ Msg} {servers : List NodeId}

theorem senders_lookup (servers : List NodeId) (nodeId : NodeId) :
    (@initialiseChannels Msg servers).1.lookup nodeId = if nodeId ∈ servers then some nodeId else none := by
  induction servers with
  | nil => rfl
  | cons pid servers ih =>
    simp only [initialiseChannels, HashMap.lookup_insert_eq, ih, List.mem_cons]
    by_cases same : nodeId = pid
    · simp [same]
    · simp [same]

theorem receivers_lookup (servers : List NodeId) (nodeId : NodeId) :
    (@initialiseChannels Msg servers).2.lookup nodeId = if nodeId ∈ servers then some [] else none := by
  induction servers with
  | nil => rfl
  | cons pid servers ih =>
    simp only [initialiseChannels, HashMap.lookup_insert_eq, ih, List.mem_cons]
    by_cases same : nodeId = pid
    · simp [same]
    · simp [same]

/-- A runner as `spawn_nodes` makes it. -/
def Spawned (protocol : Protocol σ Msg) (servers : List NodeId) (senders : HashMap NodeId Sender)
    (nodeId : NodeId) (found : Option (Runner σ Msg)) : Prop :=
  ∃ runner, found = some runner ∧ Runner.new protocol nodeId servers (senders.erase nodeId) [] = some runner

section
variable {senders : HashMap NodeId Sender} {rest : List NodeId}
  {receivers : HashMap NodeId (List (Envelope Msg))}
  {nodes runners : HashMap NodeId (Runner σ Msg)}

/-- Each runner takes its channel out of the map, so no node can be listed twice. -/
theorem spawnRunners_spawned
    (unused : ∀ nodeId messages, receivers.lookup nodeId = some messages → messages = [])
    (spawned : spawnRunners protocol servers senders rest receivers nodes = some runners) :
    rest.Nodup ∧ (∀ nodeId ∈ rest, nodeId ∈ receivers) ∧
    (∀ nodeId ∈ rest, Spawned protocol servers senders nodeId (runners.lookup nodeId)) ∧
      ∀ nodeId, nodeId ∉ rest → runners.lookup nodeId = nodes.lookup nodeId := by
  induction rest generalizing receivers nodes with
  | nil =>
    cases spawned
    exact ⟨.nil, nofun, nofun, fun _ _ => rfl⟩
  | cons pid rest ih =>
    obtain ⟨messages, opened, built⟩ := Option.bind_eq_some_iff.mp spawned
    obtain rfl := unused pid messages opened
    obtain ⟨runner, made, ran⟩ := Option.bind_eq_some_iff.mp built
    have erased : ∀ nodeId messages, (receivers.erase pid).lookup nodeId =
        some messages → messages = [] := by
      intro nodeId messages found
      rw [HashMap.lookup_erase_eq] at found
      split at found
      · cases found
      · exact unused nodeId messages found
    obtain ⟨distinct, channels, each, others⟩ := ih erased ran
    have absent : pid ∉ rest := fun member => absurd (channels pid member) (Finmap.notMem_erase_self)
    refine ⟨List.nodup_cons.mpr ⟨absent, distinct⟩, ?_, ?_, ?_⟩
    · intro nodeId member
      rcases List.mem_cons.mp member with rfl | later
      · exact Finmap.mem_of_lookup_eq_some opened
      · exact (Finmap.mem_erase.mp (channels nodeId later)).2
    · intro nodeId member
      rcases List.mem_cons.mp member with rfl | later
      · refine ⟨runner, ?_, made⟩
        rw [others nodeId absent]
        exact Finmap.lookup_insert nodes
      · exact each nodeId later
    · intro nodeId outside
      rw [List.mem_cons, not_or] at outside
      rw [others nodeId outside.2]
      exact Finmap.lookup_insert_of_ne nodes outside.1

theorem spawnRunners_succeeds (distinct : rest.Nodup)
    (opened : ∀ nodeId ∈ rest, receivers.lookup nodeId = some [])
    (builds : ∀ nodeId ∈ rest, ∃ omniDurability, protocol.new nodeId servers = some omniDurability) :
    ∃ runners, spawnRunners protocol servers senders rest receivers nodes = some runners := by
  induction rest generalizing receivers nodes with
  | nil => exact ⟨nodes, rfl⟩
  | cons pid rest ih =>
    obtain ⟨absent, distinct⟩ := List.nodup_cons.mp distinct
    obtain ⟨omniDurability, built⟩ := builds pid List.mem_cons_self
    have later : ∀ nodeId ∈ rest, (receivers.erase pid).lookup nodeId = some [] := by
      intro nodeId member
      rw [Finmap.lookup_erase_ne (ne_of_mem_of_not_mem member absent)]
      exact opened nodeId (List.mem_cons_of_mem pid member)
    simp only [spawnRunners, opened pid List.mem_cons_self, Runner.new, built, Option.bind_eq_bind,
      Option.bind_some, Option.pure_def]
    exact ih distinct later fun nodeId member => builds nodeId (List.mem_cons_of_mem pid member)

end

theorem spawn_spawned {network : Network σ Msg} (spawned : spawnNodes protocol servers = some network) :
    servers.Nodup ∧ network.pending = [] ∧
      (∀ nodeId ∈ servers, Spawned protocol servers (@initialiseChannels Msg servers).1 nodeId
        (network.runners.lookup nodeId)) ∧
      ∀ nodeId, nodeId ∉ servers → network.runners.lookup nodeId = none := by
  obtain ⟨runners, ran, made⟩ := Option.bind_eq_some_iff.mp spawned
  cases made
  have unused : ∀ nodeId messages, (@initialiseChannels Msg servers).2.lookup nodeId =
      some messages → messages = [] := by
    intro nodeId messages found
    rw [receivers_lookup] at found
    split at found <;> cases found
    rfl
  obtain ⟨distinct, _, each, others⟩ := spawnRunners_spawned unused ran
  exact ⟨distinct, rfl, each, others⟩

theorem spawn_found {network : Network σ Msg} (spawned : spawnNodes protocol servers = some network)
    {nodeId : NodeId} {runner : Runner σ Msg} (found : network.runners.lookup nodeId = some runner) :
    nodeId ∈ servers ∧ ∃ omniDurability, runner = {
      node := .new nodeId
      omniDurability
      connections := (@initialiseChannels Msg servers).1.erase nodeId
      disconnectedConnections := ∅
      isRunning := true
      receivedMessagesSize := 0
      receiver := []
      phase := .starting
      taken := []
      accepted := []
      handled := [] } := by
  obtain ⟨_, _, each, others⟩ := spawn_spawned spawned
  by_cases member : nodeId ∈ servers
  · obtain ⟨other, known, made⟩ := each nodeId member
    obtain rfl := Option.some.inj (known.symm.trans found)
    obtain ⟨omniDurability, _, same⟩ := Option.bind_eq_some_iff.mp made
    exact ⟨member, omniDurability, (Option.some.inj same).symm⟩
  · rw [others nodeId member] at found
    cases found

theorem spawn_iff : (∃ network, spawnNodes protocol servers = some network) ↔
    servers.Nodup ∧ ∀ nodeId ∈ servers, ∃ omniDurability, protocol.new nodeId servers =
      some omniDurability := by
  constructor
  · rintro ⟨network, spawned⟩
    obtain ⟨distinct, _, each, _⟩ := spawn_spawned spawned
    refine ⟨distinct, ?_⟩
    intro nodeId member
    obtain ⟨runner, _, made⟩ := each nodeId member
    obtain ⟨omniDurability, built, _⟩ := Option.bind_eq_some_iff.mp made
    exact ⟨omniDurability, built⟩
  · rintro ⟨distinct, builds⟩
    have opened : ∀ nodeId ∈ servers, (@initialiseChannels Msg servers).2.lookup nodeId = some [] := by
      intro nodeId member
      rw [receivers_lookup, if_pos member]
    obtain ⟨runners, ran⟩ := @spawnRunners_succeeds σ Msg protocol servers
      (@initialiseChannels Msg servers).1 servers _ ∅ distinct opened builds
    exact ⟨⟨runners, []⟩, Option.bind_eq_some_iff.mpr ⟨runners, ran, rfl⟩⟩

end Spawn

section Changes
variable [BuildProfile] {protocol : Protocol σ Msg} {network after : Network σ Msg} {event : Network.Event}

/-- How a move can change one runner. A delivery changes its two ends, one after the other. -/
inductive Changes (protocol : Protocol σ Msg) : Network.Event → NodeId → Runner σ Msg → Runner σ Msg → Prop
  | task {nodeId : NodeId} {action : RunnerAction} {runner after : Runner σ Msg}
      (step : RunnerStep protocol runner action after) :
      Changes protocol (.runner nodeId action) nodeId runner after
  | sent {nodeId : NodeId} {runner : Runner σ Msg} {channel : Sender} {message : Msg}
      {outMessages : List Msg} (awaits : runner.phase = .awaiting channel message outMessages) :
      Changes protocol (.deliver nodeId) nodeId runner (runner.sent outMessages)
  | accepted {nodeId channel : NodeId} {runner : Runner σ Msg} (message : Msg)
      (live : runner.phase.closed = false) (room : runner.receiver.length < msgBufferSize) :
      Changes protocol (.deliver nodeId) channel runner (runner.accept ⟨nodeId, message⟩)
  | stroke {runner : Runner σ Msg} (stroke : Stroke) (alive : runner.phase ≠ .panicked) :
      Changes protocol (.stroke stroke) stroke.nodeId runner (runner.stroke stroke)

omit [BuildProfile] in
@[simp] theorem lookup_set (network : Network σ Msg) (nodeId other : NodeId) (runner : Runner σ Msg) :
    (network.set nodeId runner).runners.lookup other =
      if other = nodeId then some runner else network.runners.lookup other :=
  HashMap.lookup_insert_eq network.runners nodeId other runner

omit [BuildProfile] in
theorem set_self (network : Network σ Msg) (nodeId : NodeId) (runner : Runner σ Msg) :
    (network.set nodeId runner).runners.lookup nodeId = some runner :=
  (lookup_set _ _ _ _).trans (if_pos rfl)

omit [BuildProfile] in
theorem set_elsewhere {network : Network σ Msg} {nodeId other : NodeId} {found : Option (Runner σ Msg)}
    (runner : Runner σ Msg) (different : other ≠ nodeId) (known : network.runners.lookup other = found) :
    (network.set nodeId runner).runners.lookup other = found :=
  (lookup_set _ _ _ _).trans ((if_neg different).trans known)

/-- What each runner keeps under every change of it, it keeps under every move of the network. -/
theorem moves_keep (valid : NodeId → Runner σ Msg → Prop)
    (holds : ∀ nodeId runner, network.runners.lookup nodeId = some runner → valid nodeId runner)
    (changes : ∀ nodeId runner after, valid nodeId runner →
      Changes protocol event nodeId runner after → valid nodeId after)
    (moves : Network.Moves protocol network event after) :
    ∀ nodeId runner, after.runners.lookup nodeId = some runner → valid nodeId runner := by
  have put {network : Network σ Msg} {changed : NodeId} {runner : Runner σ Msg}
      (fresh : valid changed runner)
      (holds : ∀ nodeId runner, network.runners.lookup nodeId = some runner → valid nodeId runner) :
      ∀ nodeId other, (network.set changed runner).runners.lookup nodeId = some other →
        valid nodeId other := by
    intro nodeId other found
    rw [lookup_set] at found
    split at found
    next same =>
      cases found
      exact same ▸ fresh
    next => exact holds nodeId other found
  cases moves with
  | runner found step => exact put (changes _ _ _ (holds _ _ found) (.task step)) holds
  | delivered found awaits receives live room =>
    have sent := put (changes _ _ _ (holds _ _ found) (.sent awaits)) holds
    exact put (changes _ _ _ (sent _ _ receives) (.accepted _ live room)) sent
  | lost found awaits => exact put (changes _ _ _ (holds _ _ found) (.sent awaits)) holds
  | deleteConnections | reconnectNodes => exact holds
  | stroke _ found alive => exact put (changes _ _ _ (holds _ _ found) (.stroke _ alive)) holds

theorem runners_invariant {start finish : Network σ Msg} {events : List Network.Event}
    (run : Run (Network.Moves protocol) start events finish) (valid : NodeId → Runner σ Msg → Prop)
    {guard : Network.Event → Prop} (allowed : ∀ event ∈ events, guard event)
    (starts : ∀ nodeId runner, start.runners.lookup nodeId = some runner → valid nodeId runner)
    (changes : ∀ event nodeId runner after, guard event → valid nodeId runner →
      Changes protocol event nodeId runner after → valid nodeId after) :
    ∀ nodeId runner, finish.runners.lookup nodeId = some runner → valid nodeId runner := by
  induction run with
  | nil => exact starts
  | snoc before last ih =>
    have held := ih fun event member => allowed event (List.mem_append_left _ member)
    have permitted := allowed _ (List.mem_append_right _ List.mem_cons_self)
    exact moves_keep valid held (fun nodeId runner after valid =>
      changes _ nodeId runner after permitted valid) last

/-- No runner comes or goes. -/
theorem moves_nodes (moves : Network.Moves protocol network event after) (nodeId : NodeId) :
    nodeId ∈ after.runners ↔ nodeId ∈ network.runners := by
  have put {network : Network σ Msg} {changed : NodeId} (before runner : Runner σ Msg)
      (found : network.runners.lookup changed = some before) :
      nodeId ∈ (network.set changed runner).runners ↔ nodeId ∈ network.runners := by
    rw [Network.set, Finmap.mem_insert]
    exact or_iff_right_of_imp fun same => same ▸ Finmap.mem_of_lookup_eq_some found
  cases moves with
  | runner found => exact put _ _ found
  | delivered found awaits receives => exact (put _ _ receives).trans (put _ _ found)
  | lost found => exact put _ _ found
  | deleteConnections | reconnectNodes => exact Iff.rfl
  | stroke _ found => exact put _ _ found

end Changes

section Calls
variable [BuildProfile] {protocol : Protocol σ Msg} {runner after : Runner σ Msg} {action : RunnerAction}

/-- All that a call of the task can do when it returns. -/
inductive Called (protocol : Protocol σ Msg) (runner : Runner σ Msg) : RunnerAction → Runner σ Msg → Prop
  | ticked {omniDurability : σ} (ticking : runner.phase = .ticking)
      (returned : protocol.tick runner.omniDurability = some omniDurability) :
      Called protocol runner .tick { runner with omniDurability, phase := .checking }
  | updated {node : Node} {replays : List Replay} (polling : runner.phase = .polling)
      (returned : runner.node.updateLeader (protocol.omnipaxos runner.omniDurability) =
        some (node, replays)) :
      Called protocol runner .updateLeader { runner with node, phase := .updated }
  | applied {node : Node} {replays : List Replay} (updated : runner.phase = .updated)
      (returned : runner.node.applyReplicatedTxns (protocol.omnipaxos runner.omniDurability) =
        some (node, replays)) :
      Called protocol runner .applyReplicatedTxns { runner with node, phase := .applied }
  | took {outMessages : List Msg} {omniDurability : σ} (applied : runner.phase = .applied)
      (returned : protocol.outgoingMessages runner.omniDurability = some (outMessages, omniDurability)) :
      Called protocol runner .take
        { runner with omniDurability, phase := .sending outMessages, taken := runner.taken ++ outMessages }
  | counted {envelope : Envelope Msg} {receivedMessagesSize : UInt64}
      (received : runner.phase = .received envelope)
      (added : Runner.addSize runner.receivedMessagesSize (protocol.serializedLength envelope.message) =
        some receivedMessagesSize) :
      Called protocol runner .count { runner with receivedMessagesSize, phase := .counted envelope }
  | handled {envelope : Envelope Msg} {omniDurability : σ} (counted : runner.phase = .counted envelope)
      (returned : protocol.handleIncoming runner.omniDurability envelope.message = some omniDurability) :
      Called protocol runner .handle
        { runner with omniDurability, phase := .checking, handled := runner.handled ++ [envelope] }

theorem call_cases (called : runner.call protocol action = some (some after)) :
    Called protocol runner action after := by
  cases action with
  | stop | commit | start | check | tickInterval | msgHandlingInterval | look | finish | receive | leave =>
    cases called
  | tick =>
    cases phase : runner.phase <;> simp only [Runner.call, phase] at called <;> try cases called
    obtain ⟨omniDurability, returned, rfl⟩ := Option.map_eq_some_iff.mp (Option.some.inj called)
    exact .ticked phase returned
  | updateLeader =>
    cases phase : runner.phase <;> simp only [Runner.call, phase] at called <;> try cases called
    obtain ⟨⟨node, replays⟩, returned, rfl⟩ := Option.map_eq_some_iff.mp (Option.some.inj called)
    exact .updated phase returned
  | applyReplicatedTxns =>
    cases phase : runner.phase <;> simp only [Runner.call, phase] at called <;> try cases called
    obtain ⟨⟨node, replays⟩, returned, rfl⟩ := Option.map_eq_some_iff.mp (Option.some.inj called)
    exact .applied phase returned
  | take =>
    cases phase : runner.phase <;> simp only [Runner.call, phase] at called <;> try cases called
    obtain ⟨⟨outMessages, omniDurability⟩, returned, rfl⟩ :=
      Option.map_eq_some_iff.mp (Option.some.inj called)
    exact .took phase returned
  | count =>
    cases phase : runner.phase <;> simp only [Runner.call, phase] at called <;> try cases called
    obtain ⟨receivedMessagesSize, added, rfl⟩ := Option.map_eq_some_iff.mp (Option.some.inj called)
    exact .counted phase added
  | handle =>
    cases phase : runner.phase <;> simp only [Runner.call, phase] at called <;> try cases called
    obtain ⟨omniDurability, returned, rfl⟩ := Option.map_eq_some_iff.mp (Option.some.inj called)
    exact .handled phase returned

theorem Called.call (called : Called protocol runner action after) :
    runner.call protocol action = some (some after) := by
  cases called with
  | ticked phase returned | updated phase returned | applied phase returned | took phase returned =>
    simp only [Runner.call, phase]
    exact congrArg some (Option.map_eq_some_iff.mpr ⟨_, returned, rfl⟩)
  | counted phase returned | handled phase returned =>
    simp only [Runner.call, phase]
    exact congrArg some (Option.map_eq_some_iff.mpr ⟨_, returned, rfl⟩)

/-- Calls are made before the messages of a poll are taken, or after they are sent. -/
theorem call_phase {result : Panics (Runner σ Msg)} (called : runner.call protocol action = some result) :
    runner.phase = .ticking ∨ runner.phase = .polling ∨ runner.phase = .updated ∨ runner.phase = .applied ∨
      (∃ envelope, runner.phase = .received envelope) ∨ ∃ envelope, runner.phase = .counted envelope := by
  cases phase : runner.phase with
  | ticking => exact .inl rfl
  | polling => exact .inr (.inl rfl)
  | updated => exact .inr (.inr (.inl rfl))
  | applied => exact .inr (.inr (.inr (.inl rfl)))
  | received envelope => exact .inr (.inr (.inr (.inr (.inl ⟨envelope, rfl⟩))))
  | counted envelope => exact .inr (.inr (.inr (.inr (.inr ⟨envelope, rfl⟩))))
  | starting | checking | selecting | sending | awaiting | leaving | ended | panicked =>
    cases action <;> simp [Runner.call, phase] at called

end Calls

/-- A runner of a cluster of two that has just been spawned. -/
def newcomer (nodeId : NodeId) (omniDurability : σ) : Runner σ Msg where
  node := .new nodeId
  omniDurability
  connections := (@initialiseChannels Msg [1, 2]).1.erase nodeId
  disconnectedConnections := ∅
  isRunning := true
  receivedMessagesSize := 0
  receiver := []
  phase := .starting
  taken := []
  accepted := []
  handled := []

theorem spawn_two {protocol : Protocol σ Msg} {first second : σ}
    (buildsFirst : protocol.new 1 [1, 2] = some first)
    (buildsSecond : protocol.new 2 [1, 2] = some second) :
    ∃ start, spawnNodes protocol [1, 2] = some start ∧
    start.runners.lookup 1 = some (newcomer 1 first) ∧ start.runners.lookup 2 = some (newcomer 2 second) ∧
    ∀ nodeId, nodeId ≠ 1 → nodeId ≠ 2 → start.runners.lookup nodeId = none := by
  have builds : ∀ nodeId ∈ [1, 2], ∃ omniDurability, protocol.new nodeId [1, 2] = some omniDurability := by
    intro nodeId member
    simp only [List.mem_cons, List.not_mem_nil, or_false] at member
    rcases member with rfl | rfl
    · exact ⟨first, buildsFirst⟩
    · exact ⟨second, buildsSecond⟩
  obtain ⟨start, spawned⟩ := spawn_iff.mpr ⟨by decide, builds⟩
  obtain ⟨_, _, each, others⟩ := spawn_spawned spawned
  obtain ⟨runnerA, foundA, madeA⟩ := each 1 List.mem_cons_self
  obtain ⟨runnerB, foundB, madeB⟩ := each 2 (List.mem_cons_of_mem 1 List.mem_cons_self)
  rw [Runner.new, buildsFirst] at madeA
  rw [Runner.new, buildsSecond] at madeB
  cases madeA
  cases madeB
  refine ⟨start, spawned, foundA, foundB, ?_⟩
  intro nodeId first second
  refine others nodeId ?_
  simp only [List.mem_cons, List.not_mem_nil, or_false, not_or]
  exact ⟨first, second⟩

/-- Nodes that hear of one leader or of none, and that have some messages for each other node
when they are first asked. -/
def greetings (leader : Option NodeId) (copies : Nat) : Protocol (List NodeId) NodeId where
  new nodeId servers :=
    some ((servers.filter fun other => decide (other ≠ nodeId)).flatMap (List.replicate copies))
  omnipaxos _ := .ofLog leader [] 0
  tick messages := some messages
  handleIncoming messages _ := some messages
  outgoingMessages messages := some (messages, [])
  append messages _ := messages
  getReceiver := id
  serializedLength _ := 1

theorem greetings_spawn (leader : Option NodeId) (copies : Nat) : ∃ start,
    spawnNodes (greetings leader copies) [1, 2] = some start ∧
    start.runners.lookup 1 = some (newcomer 1 (List.replicate copies 2)) ∧
    start.runners.lookup 2 = some (newcomer 2 (List.replicate copies 1)) ∧
    ∀ nodeId, nodeId ≠ 1 → nodeId ≠ 2 → start.runners.lookup nodeId = none := by
  refine spawn_two ?_ ?_
  · rw [← List.append_nil (List.replicate copies 2)]
    rfl
  · rw [← List.append_nil (List.replicate copies 1)]
    rfl

/-- The first poll of a node to which nothing is decided does nothing but hear of the leader
and take its messages. -/
theorem greetings_poll [BuildProfile] {leader : Option NodeId} {copies : Nat}
    {network : Network (List NodeId) NodeId} {nodeId : NodeId} {runner : Runner (List NodeId) NodeId}
    (found : network.runners.lookup nodeId = some runner) (new : runner.node = .new nodeId)
    (starting : runner.phase = .starting) (running : runner.isRunning = true) :
    ∃ later, Run (Network.Moves (greetings leader copies)) network
        [.runner nodeId .start, .runner nodeId .check, .runner nodeId .msgHandlingInterval,
          .runner nodeId .updateLeader, .runner nodeId .applyReplicatedTxns, .runner nodeId .take] later ∧
      later.runners.lookup nodeId = some { runner with
        node := { Node.new nodeId with currentLeader := leader }
        omniDurability := []
        phase := .sending runner.omniDurability
        taken := runner.taken ++ runner.omniDurability } ∧
      ∀ other, other ≠ nodeId → later.runners.lookup other = network.runners.lookup other := by
  obtain ⟨node, messages, connections, disconnected, isRunning, size, receiver, phase, taken,
      accepted, handled⟩ := runner
  cases new
  cases starting
  cases running
  have starts : Run (Network.Moves (greetings leader copies)) network ([] ++ [.runner nodeId .start]) _ :=
    Run.nil.snoc (.runner found (.start rfl))
  have checks := starts.snoc (.runner (set_self _ _ _) (.check rfl))
  have hears : (Node.new nodeId).updateLeader (.ofLog leader [] 0) =
      some ({ Node.new nodeId with currentLeader := leader }, []) := by
    cases leader <;> rfl
  have wakes := checks.snoc (.runner (set_self _ _ _) (.msgHandlingInterval rfl))
  have updates := wakes.snoc (.runner (set_self _ _ _)
    (@RunnerStep.called _ _ _ (greetings leader copies) _ .updateLeader _
      (congrArg some (Option.map_eq_some_iff.mpr ⟨_, hears, rfl⟩))))
  have applies := updates.snoc (.runner (set_self _ _ _)
    (@RunnerStep.called _ _ _ (greetings leader copies) _ .applyReplicatedTxns _ rfl))
  have takes :=
    applies.snoc
      (.runner (set_self _ _ _) (@RunnerStep.called _ _ _ (greetings leader copies) _ .take _ rfl))
  refine ⟨_, takes, set_self _ _ _, ?_⟩
  intro other different
  exact set_elsewhere _ different
    (set_elsewhere _ different (set_elsewhere _ different (set_elsewhere _ different
      (set_elsewhere _ different (set_elsewhere _ different rfl)))))

/-- A node that runs takes the first message out of its channel and handles it. -/
theorem greetings_handle [BuildProfile] {leader : Option NodeId} {copies : Nat}
    {start network : Network (List NodeId) NodeId} {events : List Network.Event} {nodeId : NodeId}
    {runner : Runner (List NodeId) NodeId} {envelope : Envelope NodeId} {rest : List (Envelope NodeId)}
    (run : Run (Network.Moves (greetings leader copies)) start events network)
    (found : network.runners.lookup nodeId = some runner) (selecting : runner.phase = .selecting)
    (next : runner.receiver = envelope :: rest) (size : runner.receivedMessagesSize = 0) :
    ∃ later, Run (Network.Moves (greetings leader copies)) start
        (events ++ [.runner nodeId .receive, .runner nodeId .count, .runner nodeId .handle]) later ∧
      later.runners.lookup nodeId = some { runner with
        receivedMessagesSize := 1
        receiver := rest
        phase := .checking
        handled := runner.handled ++ [envelope] } ∧
      ∀ other, other ≠ nodeId → later.runners.lookup other = network.runners.lookup other := by
  obtain ⟨node, messages, connections, disconnected, isRunning, size, receiver, phase, taken,
      accepted, handled⟩ := runner
  cases selecting
  cases next
  cases size
  have receives : Run (Network.Moves (greetings leader copies)) network
      ([] ++ [.runner nodeId .receive]) _ :=
    Run.nil.snoc (.runner found (.receive rfl rfl))
  have counts := receives.snoc (.runner (set_self _ _ _)
    (@RunnerStep.called _ _ _ (greetings leader copies) _ .count _ rfl))
  have handles := counts.snoc (.runner (set_self _ _ _)
    (@RunnerStep.called _ _ _ (greetings leader copies) _ .handle _ rfl))
  refine ⟨_, run.append handles, set_self _ _ _, ?_⟩
  intro other different
  exact set_elsewhere _ different (set_elsewhere _ different (set_elsewhere _ different rfl))

def greeting : List Network.Event :=
  [.runner 1 .start, .runner 1 .check, .runner 1 .msgHandlingInterval, .runner 1 .updateLeader,
    .runner 1 .applyReplicatedTxns, .runner 1 .take, .runner 1 .look, .deliver 1,
    .runner 2 .start, .runner 2 .check]

/-- One of two nodes sends its message, and the other one is about to select. -/
theorem greetings_selects [BuildProfile] : ∃ start network sender,
    spawnNodes (greetings none 1) [1, 2] = some start ∧
    Run (Network.Moves (greetings none 1)) start greeting network ∧
    network.runners.lookup 1 = some sender ∧ sender.phase = .sending [] ∧ sender.taken = [2] ∧
    network.runners.lookup 2 = some { (newcomer 2 [1]).accept ⟨1, 2⟩ with phase := .selecting } := by
  obtain ⟨start, spawned, first, second, _⟩ := greetings_spawn none 1
  obtain ⟨polled, run, sends, others⟩ := @greetings_poll _ none 1 _ _ _ first rfl rfl rfl
  have target := (others 2 (by decide)).trans second
  have looks := run.snoc (.runner sends (@RunnerStep.look _ _ _ (greetings none 1) _ 2 [] 2 rfl rfl))
  have delivers := looks.snoc (.delivered (set_self _ _ _) rfl
    (set_elsewhere _ (by decide) (set_elsewhere _ (by decide) target)) rfl (by decide))
  have starts := delivers.snoc (.runner (set_self _ _ _) (.start rfl))
  have checks := starts.snoc (.runner (set_self _ _ _) (.check rfl))
  exact ⟨start, _, _, spawned, checks,
    set_elsewhere _ (by decide)
      (set_elsewhere _ (by decide) (set_elsewhere _ (by decide) (set_self _ _ _))), rfl, rfl,
    set_self _ _ _⟩

/-- And then the other one handles it. -/
theorem greetings_exchange [BuildProfile] : ∃ start network sender receiver,
    spawnNodes (greetings none 1) [1, 2] = some start ∧
    Run (Network.Moves (greetings none 1)) start
      (greeting ++ [.runner 2 .receive, .runner 2 .count, .runner 2 .handle]) network ∧
    network.runners.lookup 1 = some sender ∧ sender.phase = .sending [] ∧ sender.taken = [2] ∧
    network.runners.lookup 2 = some receiver ∧ receiver.handled = [⟨1, 2⟩] ∧ receiver.phase = .checking ∧
    receiver.receiver = [] := by
  obtain ⟨start, selecting, sender, spawned, run, sends, sent, taken, found⟩ := greetings_selects
  obtain ⟨network, handles, receiver, kept⟩ := greetings_handle run found rfl rfl rfl
  exact ⟨start, network, sender, _, spawned, handles, (kept 1 (by decide)).trans sends, sent, taken,
    receiver, rfl, rfl, rfl⟩

end OmniSpacetimeDb.Proofs.NetworkTraffic
