import OmniSpacetimeDb.Proofs.NetworkTopology
import OmniSpacetimeDb.Proofs.Watermark

/-! Runners that wait for each other. A runner hands over its messages before it
receives any, and the channels are bounded, so full channels can hold each
other up. -/

namespace OmniSpacetimeDb.Proofs.NetworkStalls
open Foundations Datastore Durability Cluster NetworkTraffic NetworkDelivery NetworkTopology
variable {σ Msg : Type}

/-- Where the next step of a task needs the mutex of its node. -/
def atMutex : Phase Msg → Bool
  | .starting | .checking | .ticking | .polling | .updated | .applied | .sending (_ :: _) => true
  | .received _ | .counted _ | .leaving => true
  | .selecting | .sending [] | .awaiting _ _ _ | .ended | .panicked => false

def Live (network : Network σ Msg) (nodeId : NodeId) : Prop :=
  ∃ runner, network.runners.lookup nodeId = some runner ∧ runner.phase.closed = false

/-- A runner that waits for room in the full channel of another one that is not gone. -/
structure HeldUp (network : Network σ Msg) (nodeId channel : NodeId) (runner target : Runner σ Msg) :
    Prop where
  found : network.runners.lookup nodeId = some runner
  awaits : ∃ message outMessages, runner.phase = .awaiting channel message outMessages
  receives : network.runners.lookup channel = some target
  live : target.phase.closed = false
  full : msgBufferSize ≤ target.receiver.length

/-- Nodes each of which is held up by one of them. -/
def Gridlocked (network : Network σ Msg) (nodes : NodeId → Prop) : Prop :=
  ∀ nodeId, nodes nodeId → ∃ channel runner target, nodes channel ∧
    HeldUp network nodeId channel runner target

/-- What a runner keeps that takes, handles and applies nothing, whatever its clients do. -/
structure Rests (before after : Runner σ Msg) : Prop where
  taken : after.taken = before.taken
  handled : after.handled = before.handled
  applied : after.node.lastAppliedIndex = before.node.lastAppliedIndex
  replicated : after.node.datastore.replicatedState = before.node.datastore.replicatedState

theorem Rests.refl (runner : Runner σ Msg) : Rests runner runner := ⟨rfl, rfl, rfl, rfl⟩

theorem Rests.trans {before middle after : Runner σ Msg} (first : Rests before middle)
    (second : Rests middle after) :
    Rests before after where
  taken := second.taken.trans first.taken
  handled := second.handled.trans first.handled
  applied := second.applied.trans first.applied
  replicated := second.replicated.trans first.replicated

/-- One that does not move at all keeps what is in its channel as well, whatever reaches it. -/
structure Stalled (before after : Runner σ Msg) : Prop where
  phase : after.phase = before.phase
  receiver : before.receiver <+: after.receiver
  rests : Rests before after

theorem Stalled.refl (runner : Runner σ Msg) : Stalled runner runner :=
  ⟨rfl, List.prefix_refl _, .refl runner⟩

theorem Stalled.trans {before middle after : Runner σ Msg} (first : Stalled before middle)
    (second : Stalled middle after) : Stalled before after where
  phase := second.phase.trans first.phase
  receiver := first.receiver.trans second.receiver
  rests := first.rests.trans second.rests

theorem accept_stalls (runner : Runner σ Msg) (envelope : Envelope Msg) :
    Stalled runner (runner.accept envelope) :=
  ⟨rfl, List.prefix_append _ _, rfl, rfl, rfl, rfl⟩

theorem run_state {tx after : MutTx} {calls : List Call} (ran : tx.run calls = some after) :
    after.committedState = tx.committedState := by
  induction calls generalizing tx with
  | nil =>
    cases ran
    rfl
  | cons call calls ih =>
    obtain ⟨middle, first, rest⟩ := Option.bind_eq_some_iff.mp ran
    exact (ih rest).trans (Watermark.call_state first)

/-- A client's transaction leaves what is replicated alone. -/
theorem execute_keeps {node after : Node} {omnipaxos : OmniPaxos} {tx : ClientTx} {result : TxResult}
    {entry : DatabaseLogEntry}
    (returned : node.execute omnipaxos tx = some (.ok (result, entry, after))) :
    after.lastAppliedIndex = node.lastAppliedIndex ∧
      after.datastore.replicatedState = node.datastore.replicatedState := by
  rw [Node.execute, Node.beginMutTx] at returned
  split at returned
  · cases returned
  next opened leads =>
    split at leads
    · obtain ⟨closed, ran, made⟩ := Option.bind_eq_some_iff.mp returned
      have committed := Watermark.commit_stores (Option.some.inj made)
      cases leads
      subst committed
      have same := congrArg CommittedState.replicatedState (run_state ran)
      exact ⟨rfl, same⟩
    · cases leads

section Steps
variable [BuildProfile] {protocol : Protocol σ Msg} {servers : List NodeId}
  {network after : Network σ Msg} {event : Network.Event}

/-- Only a send ends the wait of a runner. -/
theorem stalled_changes {nodeId channel : NodeId} {runner changed : Runner σ Msg} {message : Msg}
    {outMessages : List Msg} (awaits : runner.phase = .awaiting channel message outMessages)
    (changes : Changes protocol event nodeId runner changed) :
    Stalled runner changed ∨ event = .deliver nodeId := by
  cases changes with
  | task step =>
    refine .inl ?_
    cases step with
    | stop => exact ⟨rfl, List.prefix_refl _, rfl, rfl, rfl, rfl⟩
    | commit _ returned =>
      obtain ⟨applied, replicated⟩ := execute_keeps returned
      exact ⟨rfl, List.prefix_refl _, rfl, rfl, applied, replicated⟩
    | start phase | check phase | tickInterval phase | msgHandlingInterval phase | look phase | skip phase
    | finish phase | receive phase | leave phase =>
      rw [awaits] at phase
      cases phase
    | called called | panicked called =>
      rcases call_phase called with phase | phase | phase | phase | ⟨_, phase⟩ | ⟨_, phase⟩ <;>
        rw [awaits] at phase <;>
        cases phase
  | sent => exact .inr rfl
  | accepted => exact .inl (accept_stalls _ _)
  | stroke stroke =>
    rw [stroke_frame]
    exact .inl ⟨rfl, List.prefix_refl _, rfl, rfl, rfl, rfl⟩

/-- A runner that is held up cannot send. -/
theorem heldUp_waits {nodeId channel : NodeId} {runner target : Runner σ Msg}
    (held : HeldUp network nodeId channel runner target) :
    ¬ ∃ after, Network.Moves protocol network (.deliver nodeId) after := by
  obtain ⟨message, outMessages, awaits⟩ := held.awaits
  rintro ⟨after, moves⟩
  cases moves with
  | delivered found waits receives live room =>
    obtain rfl := Option.some.inj (held.found.symm.trans found)
    rw [awaits] at waits
    cases waits
    obtain ⟨old, known, here, elsewhere⟩ := found_set found receives
    obtain rfl := Option.some.inj (held.receives.symm.trans known)
    have full := held.full
    by_cases self : channel = nodeId
    · obtain ⟨rfl, rfl⟩ := here self
      exact absurd room (Nat.not_lt_of_le full)
    · rw [elsewhere self] at room
      exact absurd room (Nat.not_lt_of_le full)
  | lost found waits receives closed =>
    obtain rfl := Option.some.inj (held.found.symm.trans found)
    rw [awaits] at waits
    cases waits
    obtain rfl := Option.some.inj (held.receives.symm.trans receives)
    rw [held.live] at closed
    cases closed

theorem stalled_moves {nodeId channel : NodeId} {runner target : Runner σ Msg}
    (held : HeldUp network nodeId channel runner target)
    (moves : Network.Moves protocol network event after) :
    ∃ later, after.runners.lookup nodeId = some later ∧ Stalled runner later := by
  have present : nodeId ∈ after.runners :=
    (moves_nodes moves nodeId).mpr (Finmap.mem_of_lookup_eq_some held.found)
  obtain ⟨later, found⟩ := Finmap.mem_iff.mp present
  refine ⟨later, found, ?_⟩
  obtain ⟨message, outMessages, awaits⟩ := held.awaits
  refine moves_keep (fun other changed => other = nodeId → Stalled runner changed) ?_ ?_ moves
    nodeId later found rfl
  · intro other changed known same
    subst same
    obtain rfl := Option.some.inj (held.found.symm.trans known)
    exact .refl runner
  · intro other changed last valid changes same
    subst same
    have before := valid rfl
    rcases stalled_changes (before.phase.trans awaits) changes with stalled | rfl
    · exact before.trans stalled
    · exact absurd ⟨after, moves⟩ (heldUp_waits held)

theorem gridlocked_moves {nodes : NodeId → Prop} (gridlocked : Gridlocked network nodes)
    (moves : Network.Moves protocol network event after) :
    Gridlocked after nodes := by
  intro nodeId member
  obtain ⟨channel, runner, target, inside, held⟩ := gridlocked nodeId member
  obtain ⟨_, target', _, _, heldChannel⟩ := gridlocked channel inside
  obtain rfl := Option.some.inj (held.receives.symm.trans heldChannel.found)
  obtain ⟨later, found, stalled⟩ := stalled_moves held moves
  obtain ⟨last, receives, kept⟩ := stalled_moves heldChannel moves
  obtain ⟨message, outMessages, awaits⟩ := held.awaits
  refine ⟨channel, later, last, inside, found,
    ⟨message, outMessages, stalled.phase.trans awaits⟩, receives, ?_, ?_⟩
  · rw [kept.phase]
    exact held.live
  · exact Nat.le_trans held.full kept.receiver.length_le

theorem gridlocked_run {nodes : NodeId → Prop} {later : Network σ Msg} {events : List Network.Event}
    (gridlocked : Gridlocked network nodes) (run : Run (Network.Moves protocol) network events later) :
    Gridlocked later nodes ∧
      ∀ nodeId, nodes nodeId → ∃ before after, network.runners.lookup nodeId = some before ∧
        later.runners.lookup nodeId = some after ∧
        Stalled before after := by
  induction run with
  | nil =>
    refine ⟨gridlocked, ?_⟩
    intro nodeId member
    obtain ⟨_, runner, _, _, held⟩ := gridlocked nodeId member
    exact ⟨runner, runner, held.found, held.found, .refl runner⟩
  | snoc _ last ih =>
    obtain ⟨locked, each⟩ := ih
    refine ⟨gridlocked_moves locked last, ?_⟩
    intro nodeId member
    obtain ⟨before, middle, known, found, stalled⟩ := each nodeId member
    obtain ⟨_, runner, _, _, held⟩ := locked nodeId member
    obtain rfl := Option.some.inj (found.symm.trans held.found)
    obtain ⟨after, final, kept⟩ := stalled_moves held last
    exact ⟨before, after, known, final, stalled.trans kept⟩

/-- What a call of the task comes to. -/
theorem call_moves {runner : Runner σ Msg} {action : RunnerAction} {result : Panics (Runner σ Msg)}
    (called : runner.call protocol action = some result) :
    ∃ changed, RunnerStep protocol runner action changed := by
  cases result with
  | some changed => exact ⟨_, .called called⟩
  | none => exact ⟨_, .panicked called⟩

/-- The next step of a runner that is not gone: a call or a look under the mutex of its
node, one for which it needs none, or none while it is held up by a full channel. -/
inductive Due (protocol : Protocol σ Msg) (network : Network σ Msg) (nodeId : NodeId)
    (runner : Runner σ Msg) : Prop
  | locked {action : RunnerAction} {changed : Runner σ Msg} (stands : atMutex runner.phase = true)
      (step : RunnerStep protocol runner action changed)
      (task : Network.Event.mover (.runner nodeId action) = some nodeId)
  | free {event : Network.Event} {after : Network σ Msg} (elsewhere : atMutex runner.phase = false)
      (task : event.mover = some nodeId) (unlocked : event.locks = none)
      (moves : Network.Moves protocol network event after)
  | heldUp {channel : NodeId} {target : Runner σ Msg} (held : HeldUp network nodeId channel runner target)

theorem due_of_live {nodeId : NodeId} {runner : Runner σ Msg}
    (nodes : ∀ nodeId ∈ servers, nodeId ∈ network.runners)
    (addressed : Addressed protocol servers runner)
    (found : network.runners.lookup nodeId = some runner) (live : runner.phase.closed = false) :
    Due protocol network nodeId runner := by
  have calls {action : RunnerAction} {result : Panics (Runner σ Msg)} (stands : atMutex runner.phase = true)
      (task : Network.Event.mover (.runner nodeId action) = some nodeId)
      (called : runner.call protocol action = some result) : Due protocol network nodeId runner := by
    obtain ⟨changed, step⟩ := call_moves called
    exact .locked stands step task
  cases phase : runner.phase with
  | starting => exact .locked (by rw [phase]; rfl) (.start phase) rfl
  | checking => exact .locked (by rw [phase]; rfl) (.check phase) rfl
  | leaving => exact .locked (by rw [phase]; rfl) (.leave phase) rfl
  | selecting => exact .free (by rw [phase]; rfl) rfl rfl (.runner found (.tickInterval phase))
  | ticking =>
    have called : runner.call protocol .tick = some (runner.tick protocol) := by
      simp only [Runner.call, phase]
    exact calls (by rw [phase]; rfl) rfl called
  | polling =>
    have called : runner.call protocol .updateLeader = some (runner.updateLeader protocol) := by
      simp only [Runner.call, phase]
    exact calls (by rw [phase]; rfl) rfl called
  | updated =>
    have called : runner.call protocol .applyReplicatedTxns =
        some (runner.applyReplicatedTxns protocol) := by
      simp only [Runner.call, phase]
    exact calls (by rw [phase]; rfl) rfl called
  | applied =>
    have called : runner.call protocol .take = some (runner.takeOutgoing protocol) := by
      simp only [Runner.call, phase]
    exact calls (by rw [phase]; rfl) rfl called
  | received envelope =>
    have called : runner.call protocol .count = some (runner.count protocol envelope) := by
      simp only [Runner.call, phase]
    exact calls (by rw [phase]; rfl) rfl called
  | counted envelope =>
    have called : runner.call protocol .handle = some (runner.handleIncoming protocol envelope) := by
      simp only [Runner.call, phase]
    exact calls (by rw [phase]; rfl) rfl called
  | sending outMessages =>
    cases outMessages with
    | nil => exact .free (by rw [phase]; rfl) rfl rfl (.runner found (.finish phase))
    | cons message outMessages =>
      cases connected : runner.connections.lookup (protocol.getReceiver message) with
      | some channel => exact .locked (by rw [phase]; rfl) (.look phase connected) rfl
      | none => exact .locked (by rw [phase]; rfl) (.skip phase connected) rfl
  | awaiting channel message outMessages =>
    have elsewhere : atMutex runner.phase = false := by rw [phase]; rfl
    obtain ⟨_, member⟩ := addressed.awaits channel message outMessages phase
    obtain ⟨target, receives⟩ := Finmap.mem_iff.mp (nodes channel member)
    cases closed : target.phase.closed with
    | true => exact .free elsewhere rfl rfl (.lost found phase receives closed)
    | false =>
      by_cases full : msgBufferSize ≤ target.receiver.length
      · exact .heldUp ⟨found, ⟨message, outMessages, phase⟩, receives, closed, full⟩
      · have room := Nat.lt_of_not_le full
        by_cases self : channel = nodeId
        · obtain rfl := Option.some.inj (found.symm.trans (self ▸ receives))
          have own : (network.set nodeId (runner.sent outMessages)).runners.lookup channel =
              some (runner.sent outMessages) := by
            rw [self]
            exact set_self _ _ _
          exact .free elsewhere rfl rfl (.delivered found phase own rfl room)
        · exact .free elsewhere rfl rfl (.delivered found phase (set_elsewhere _ self receives) closed room)
  | ended | panicked =>
    rw [phase] at live
    cases live

/-- Who takes a step of a task, and where it stands. -/
theorem acts {nodeId : NodeId} (moves : Network.Moves protocol network event after)
    (task : event.mover = some nodeId) :
    ∃ runner, network.runners.lookup nodeId = some runner ∧ runner.phase.closed = false ∧
      (atMutex runner.phase = true ∧ event.locks = some nodeId ∨
        (runner.phase = .selecting ∨ runner.phase = .sending []) ∧ event.locks = none ∨
        (∃ channel message outMessages, runner.phase = .awaiting channel message outMessages) ∧
          event = .deliver nodeId) := by
  cases moves with
  | @runner other action runner changed found step =>
    cases step with
    | stop | commit => cases task
    | start phase | check phase | look phase | skip phase | leave phase =>
      cases task
      exact ⟨runner, found, by rw [phase]; rfl, .inl ⟨by rw [phase]; rfl, rfl⟩⟩
    | tickInterval phase | msgHandlingInterval phase | receive phase =>
      cases task
      exact ⟨runner, found, by rw [phase]; rfl, .inr (.inl ⟨.inl phase, rfl⟩)⟩
    | finish phase =>
      cases task
      exact ⟨runner, found, by rw [phase]; rfl, .inr (.inl ⟨.inr phase, rfl⟩)⟩
    | called called | panicked called =>
      have stands : runner.phase.closed = false ∧ atMutex runner.phase = true := by
        rcases call_phase called with phase | phase | phase | phase | ⟨_, phase⟩ | ⟨_, phase⟩ <;>
          rw [phase] <;> exact ⟨rfl, rfl⟩
      cases action with
      | stop | commit | start | check | tickInterval | msgHandlingInterval | look | finish | receive
      | leave => cases called
      | tick | updateLeader | applyReplicatedTxns | take | count | handle =>
        cases task
        exact ⟨runner, found, stands.1, .inl ⟨stands.2, rfl⟩⟩
  | delivered found awaits | lost found awaits =>
    cases task
    exact ⟨_, found, by rw [awaits]; rfl, .inr (.inr ⟨⟨_, _, _, awaits⟩, rfl⟩)⟩
  | deleteConnections | reconnectNodes | stroke => cases task

/-- No step of its task is left to a runner that is held up. -/
theorem heldUp_halts {nodeId channel : NodeId} {runner target : Runner σ Msg}
    (held : HeldUp network nodeId channel runner target) (task : event.mover = some nodeId) :
    ¬ Network.Moves protocol network event after := by
  intro moves
  obtain ⟨other, found, _, stands⟩ := acts moves task
  obtain rfl := Option.some.inj (held.found.symm.trans found)
  obtain ⟨message, outMessages, awaits⟩ := held.awaits
  rw [awaits] at stands
  rcases stands with ⟨needs, _⟩ | ⟨selects | sends, _⟩ | ⟨_, rfl⟩
  · cases needs
  · cases selects
  · cases sends
  · exact heldUp_waits held ⟨after, moves⟩

end Steps

section Fillings
variable [BuildProfile] {protocol : Protocol σ Msg} {network : Network σ Msg}

/-- A runner that waits for room hands over its message where there is some. -/
theorem hands_over {nodeA nodeB : NodeId} {messages rest : List Msg} {sender receiver : Runner σ Msg}
    (different : nodeA ≠ nodeB) (addressed : ∀ message ∈ messages, protocol.getReceiver message = nodeB)
    (foundA : network.runners.lookup nodeA = some sender)
    (foundB : network.runners.lookup nodeB = some receiver)
    (sends : sender.phase = .sending (messages ++ rest))
    (connected : sender.connections.lookup nodeB = some nodeB) (live : receiver.phase.closed = false)
    (room : receiver.receiver.length + messages.length ≤ msgBufferSize) :
    ∃ more later, Run (Network.Moves protocol) network more later ∧
      (∀ event ∈ more, event.mover = some nodeA) ∧
      later.runners.lookup nodeA = some (sender.sent rest) ∧
      later.runners.lookup nodeB = some
        ((messages.map (Envelope.mk nodeA)).foldl Runner.accept receiver) := by
  induction messages generalizing network sender receiver with
  | nil =>
    refine ⟨[], network, .nil, nofun, ?_, foundB⟩
    rw [foundA, Runner.sent, ← List.nil_append rest, ← sends]
  | cons message messages ih =>
    have leads := addressed message List.mem_cons_self
    rw [← leads] at connected
    let waits : Runner σ Msg := { sender with phase := .awaiting nodeB message (messages ++ rest) }
    have look : RunnerStep protocol sender .look waits := by
      have step := RunnerStep.look sends connected
      rwa [leads] at step
    have receives :
        ((network.set nodeA waits).set nodeA (waits.sent (messages ++ rest))).runners.lookup nodeB =
        some receiver := set_elsewhere _ (Ne.symm different) (set_elsewhere _ (Ne.symm different) foundB)
    have space : receiver.receiver.length < msgBufferSize := by
      rw [List.length_cons] at room
      omega
    have deliver : Network.Moves protocol _ _ _ :=
      .delivered (set_self network nodeA waits) rfl receives live space
    have rooms : (receiver.accept ⟨nodeA, message⟩).receiver.length + messages.length ≤ msgBufferSize := by
      rw [Runner.accept, List.length_append, List.length_singleton]
      rw [List.length_cons] at room
      omega
    obtain ⟨more, later, run, moved, lastA, lastB⟩ := ih
      (fun other member => addressed other (List.mem_cons_of_mem message member))
      (set_elsewhere _ different (set_self _ _ (waits.sent (messages ++ rest))))
      (set_self _ _ (receiver.accept ⟨nodeA, message⟩)) rfl (leads ▸ connected) live rooms
    refine ⟨_, later, ((Run.nil.snoc (.runner foundA look)).snoc deliver).append run, ?_, lastA, lastB⟩
    intro event member
    rcases List.mem_append.mp member with first | later
    · simp only [List.nil_append, List.cons_append, List.mem_cons, List.not_mem_nil, or_false] at first
      rcases first with rfl | rfl <;> rfl
    · exact moved event later

end Fillings

theorem accept_all (runner : Runner σ Msg) (envelopes : List (Envelope Msg)) :
    envelopes.foldl Runner.accept runner =
    { runner with receiver := runner.receiver ++ envelopes, accepted := runner.accepted ++ envelopes } := by
  induction envelopes generalizing runner with
  | nil => simp only [List.foldl_nil, List.append_nil]
  | cons envelope envelopes ih =>
    rw [List.foldl_cons, ih]
    simp only [Runner.accept, List.append_assoc, List.singleton_append]

/-- A node with one message more than the channel of the other holds fills it, and waits. -/
theorem greeter_waits [BuildProfile] {leader : Option NodeId} {copies : Nat}
    {network : Network (List NodeId) NodeId} {nodeId other : NodeId}
    {runner target : Runner (List NodeId) NodeId} (different : nodeId ≠ other)
    (found : network.runners.lookup nodeId = some runner) (new : runner.node = .new nodeId)
    (starting : runner.phase = .starting) (running : runner.isRunning = true)
    (messages : runner.omniDurability = List.replicate (msgBufferSize + 1) other)
    (connected : runner.connections.lookup other = some other)
    (foundOther : network.runners.lookup other = some target) (live : target.phase.closed = false)
    (empty : target.receiver = []) : ∃ more later last,
      Run (Network.Moves (greetings leader copies)) network more later ∧
      (∀ event ∈ more, event.mover = some nodeId) ∧
      later.runners.lookup nodeId = some last ∧ last.phase = .awaiting other other [] ∧
      last.receiver = runner.receiver ∧
      later.runners.lookup other = some
        ((List.replicate msgBufferSize ⟨nodeId, other⟩).foldl Runner.accept target) := by
  obtain ⟨polled, run, sends, others⟩ := @greetings_poll _ leader copies _ _ _ found new starting running
  have kept := (others other (Ne.symm different)).trans foundOther
  have batch : runner.omniDurability = List.replicate msgBufferSize other ++ [other] := by
    rw [messages, List.replicate_succ']
  have room : target.receiver.length + (List.replicate msgBufferSize other).length ≤ msgBufferSize := by
    rw [empty, List.length_replicate, List.length_nil, Nat.zero_add]
  obtain ⟨more, filled, handed, moved, last, full⟩ :=
    @hands_over _ _ _ (greetings leader copies) polled nodeId other
    (List.replicate msgBufferSize other) [other] _ target different
    (fun message member => List.eq_of_mem_replicate member) sends kept
      (congrArg Phase.sending batch) connected live room
  let filling : Runner (List NodeId) NodeId := { runner with
    node := { Node.new nodeId with currentLeader := leader }
    omniDurability := []
    taken := runner.taken ++ runner.omniDurability
    phase := .sending [other] }
  have look : RunnerStep (greetings leader copies) filling .look
    { filling with phase := .awaiting other other [] } :=
    .look rfl connected
  refine ⟨_, _, _, (run.append handed).snoc (.runner last look), ?_, set_self _ _ _, rfl, rfl, ?_⟩
  · intro event member
    simp only [List.mem_append, List.mem_cons, List.not_mem_nil, or_false] at member
    rcases member with ((rfl | rfl | rfl | rfl | rfl | rfl) | handing) | rfl
    case inl.inr => exact moved event handing
    all_goals rfl
  · rw [lookup_set, if_neg (Ne.symm different), full, List.map_replicate]

end OmniSpacetimeDb.Proofs.NetworkStalls
