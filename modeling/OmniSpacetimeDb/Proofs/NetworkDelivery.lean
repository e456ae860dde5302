import Mathlib.Algebra.Ring.Nat
import OmniSpacetimeDb.Proofs.NetworkTraffic

/-! Messages between runners. Each pair of nodes is a link that hands over in
order; a message is lost only where the sender is cut off or the receiver gone. -/

namespace OmniSpacetimeDb.Proofs.NetworkDelivery
open Foundations Datastore Durability Cluster NetworkTraffic
variable {σ Msg : Type}

/-- The messages that `send_outgoing_msgs` still has to hand over. -/
def outMessages : Phase Msg → List Msg
  | .sending outMessages => outMessages
  | .awaiting _ message outMessages => message :: outMessages
  | _ => []

/-- The message that the task has received and not handled yet. -/
def inHand : Phase Msg → List (Envelope Msg)
  | .received envelope | .counted envelope => [envelope]
  | _ => []

/-- The message that is counted and not handled yet. -/
def counting : Phase Msg → List (Envelope Msg)
  | .counted envelope => [envelope]
  | _ => []

def totalSize (protocol : Protocol σ Msg) (envelopes : List (Envelope Msg)) : Nat :=
  (envelopes.map fun envelope => protocol.serializedLength envelope.message).sum

def toward (protocol : Protocol σ Msg) (receiver : NodeId) (messages : List Msg) : List Msg :=
  messages.filter fun message => decide (protocol.getReceiver message = receiver)

def acceptedFrom (sender : NodeId) (envelopes : List (Envelope Msg)) : List Msg :=
  (envelopes.filter fun envelope => decide (envelope.sender = sender)).map Envelope.message

def linkOf (protocol : Protocol σ Msg) (nodeA nodeB : NodeId) (sender receiver : Runner σ Msg) :
    Link Msg where
  taken := toward protocol nodeB sender.taken
  left := toward protocol nodeB (outMessages sender.phase)
  accepted := acceptedFrom nodeA receiver.accepted

theorem acceptedFrom_append (sender : NodeId) (first second : List (Envelope Msg)) :
    acceptedFrom sender (first ++ second) = acceptedFrom sender first ++ acceptedFrom sender second := by
  rw [acceptedFrom, List.filter_append, List.map_append]
  rfl

theorem toward_append (protocol : Protocol σ Msg) (receiver : NodeId) (first second : List Msg) :
    toward protocol receiver (first ++ second) =
      toward protocol receiver first ++ toward protocol receiver second :=
  List.filter_append first second

theorem totalSize_snoc (protocol : Protocol σ Msg) (envelopes : List (Envelope Msg))
    (envelope : Envelope Msg) :
    totalSize protocol (envelopes ++ [envelope]) =
      totalSize protocol envelopes + protocol.serializedLength envelope.message := by
  rw [totalSize, List.map_append, List.sum_append]
  rfl

/-- Every sender is kept under the node that its channel leads to, a node of the cluster. -/
structure Addressed (protocol : Protocol σ Msg) (servers : List NodeId) (runner : Runner σ Msg) : Prop where
  connections : ∀ other channel, runner.connections.lookup other = some channel →
    channel = other ∧ channel ∈ servers
  disconnected : ∀ other channel, runner.disconnectedConnections.lookup other = some channel →
    channel = other ∧ channel ∈ servers
  awaits : ∀ channel message outMessages, runner.phase = .awaiting channel message outMessages →
    channel = protocol.getReceiver message ∧ channel ∈ servers

/-- The channel of a runner holds what it has accepted and not yet received, up to
its bound, and the sizes of what is counted are summed up in a `u64`. A message is
gone only with a runner that panicked over it. -/
structure Boxed [BuildProfile] (protocol : Protocol σ Msg) (runner : Runner σ Msg) : Prop where
  queue : ∃ gone, runner.accepted = runner.handled ++ (inHand runner.phase ++ (gone ++ runner.receiver)) ∧
    (runner.phase.closed = false → gone = [])
  bounded : runner.receiver.length ≤ msgBufferSize
  size : ∃ counted, counted.length ≤ 1 ∧ runner.handled ++ counted <+: runner.accepted ∧
    (runner.phase.closed = false → counted = counting runner.phase) ∧
    runner.receivedMessagesSize.toNat = totalSize protocol (runner.handled ++ counted) % 2 ^ 64 ∧
    (BuildProfile.overflowChecks = true → totalSize protocol (runner.handled ++ counted) < 2 ^ 64)

section Runner
variable {protocol : Protocol σ Msg} {servers : List NodeId} {runner after : Runner σ Msg}

/-- A stroke moves a connection from one map to the other, and does nothing else. -/
theorem stroke_frame (runner : Runner σ Msg) (stroke : Stroke) : runner.stroke stroke = { runner with
    connections := (runner.stroke stroke).connections
    disconnectedConnections := (runner.stroke stroke).disconnectedConnections } := by
  cases stroke with
  | cut nodeId other =>
    simp only [Runner.stroke, Runner.cut]
    split <;> rfl
  | restore nodeId other =>
    simp only [Runner.stroke, Runner.restore]
    split <;> rfl

theorem stroke_phase (runner : Runner σ Msg) (stroke : Stroke) :
    (runner.stroke stroke).phase = runner.phase := by
  rw [stroke_frame]

theorem Addressed.cut (addressed : Addressed protocol servers runner) (other : NodeId) :
    Addressed protocol servers (runner.cut other) := by
  have kept : ∀ key channel, (runner.connections.erase other).lookup key = some channel →
      channel = key ∧ channel ∈ servers := by
    intro key channel found
    rw [HashMap.lookup_erase_eq] at found
    split at found
    · cases found
    · exact addressed.connections key channel found
  rw [Runner.cut]
  split
  next connection known =>
    refine ⟨kept, ?_, addressed.awaits⟩
    intro key channel found
    rw [HashMap.lookup_insert_eq] at found
    split at found
    next same =>
      cases found
      exact same ▸ addressed.connections other connection known
    next => exact addressed.disconnected key channel found
  next => exact ⟨kept, addressed.disconnected, addressed.awaits⟩

theorem Addressed.restore (addressed : Addressed protocol servers runner) (other : NodeId) :
    Addressed protocol servers (runner.restore other) := by
  rw [Runner.restore]
  split
  next connection known =>
    refine ⟨?_, ?_, addressed.awaits⟩
    · intro key channel found
      rw [HashMap.lookup_insert_eq] at found
      split at found
      next same =>
        cases found
        exact same ▸ addressed.disconnected other connection known
      next => exact addressed.connections key channel found
    · intro key channel found
      rw [HashMap.lookup_erase_eq] at found
      split at found
      · cases found
      · exact addressed.disconnected key channel found
  next => exact addressed

variable [BuildProfile]

theorem Addressed.step {action : RunnerAction} (addressed : Addressed protocol servers runner)
    (step : RunnerStep protocol runner action after) :
    Addressed protocol servers after := by
  have elsewhere {phase : Phase Msg}
      (outside : ∀ channel message outMessages, phase ≠ .awaiting channel message outMessages) :
      ∀ channel message outMessages, phase = .awaiting channel message outMessages →
        channel = protocol.getReceiver message ∧ channel ∈ servers :=
    fun channel message outMessages same => absurd same (outside channel message outMessages)
  cases step with
  | stop | commit => exact ⟨addressed.connections, addressed.disconnected, addressed.awaits⟩
  | start | tickInterval | msgHandlingInterval | receive | leave =>
    exact ⟨addressed.connections, addressed.disconnected, elsewhere nofun⟩
  | check =>
    refine ⟨addressed.connections, addressed.disconnected, elsewhere ?_⟩
    intro channel message outMessages
    cases runner.isRunning <;> nofun
  | called called =>
    cases call_cases called <;> exact ⟨addressed.connections, addressed.disconnected, elsewhere nofun⟩
  | panicked | skip | finish => exact ⟨addressed.connections, addressed.disconnected, elsewhere nofun⟩
  | look sends connected =>
    refine ⟨addressed.connections, addressed.disconnected, ?_⟩
    intro channel message outMessages same
    cases same
    exact addressed.connections _ _ connected

theorem Addressed.changes {event : Network.Event} {nodeId : NodeId}
    (addressed : Addressed protocol servers runner)
    (changes : Changes protocol event nodeId runner after) : Addressed protocol servers after := by
  cases changes with
  | task step => exact addressed.step step
  | sent => exact ⟨addressed.connections, addressed.disconnected, nofun⟩
  | accepted => exact ⟨addressed.connections, addressed.disconnected, addressed.awaits⟩
  | stroke stroke =>
    cases stroke with
    | cut nodeId other => exact addressed.cut other
    | restore nodeId other => exact addressed.restore other

theorem addSize_toNat {size added : UInt64} {length : Nat}
    (returned : Runner.addSize size length = some added) :
    added.toNat = (size.toNat + length) % 2 ^ 64 ∧
      (BuildProfile.overflowChecks = true → size.toNat + length < 2 ^ 64) := by
  have sum : (size + UInt64.ofNat length).toNat = (size.toNat + length) % 2 ^ 64 := by
    rw [UInt64.toNat_add, UInt64.toNat_ofNat', Nat.add_mod_mod]
  rw [Runner.addSize] at returned
  split at returned
  next fits =>
    cases returned
    exact ⟨sum, fun _ => fits⟩
  next =>
    split at returned
    · cases returned
    next unchecked =>
      cases returned
      exact ⟨sum, fun checked => absurd checked unchecked⟩

/-- A step that receives, counts and handles nothing. -/
theorem Boxed.same (boxed : Boxed protocol runner) (live : runner.phase.closed = false)
    (held : inHand after.phase = inHand runner.phase)
    (counts : counting after.phase = counting runner.phase)
    (rest : after = { runner with
      node := after.node
      omniDurability := after.omniDurability
      isRunning := after.isRunning
      phase := after.phase
      taken := after.taken }) : Boxed protocol after := by
  obtain ⟨⟨gone, queue, none⟩, bounded, ⟨counted, short, within, same, size, exact⟩⟩ := boxed
  rw [rest]
  refine ⟨⟨gone, ?_, fun _ => none live⟩, bounded, ⟨counted, short, within, fun _ => ?_, size, exact⟩⟩
  · rw [held]
    exact queue
  · rw [counts]
    exact same live

theorem Boxed.step {action : RunnerAction} (boxed : Boxed protocol runner)
    (step : RunnerStep protocol runner action after) :
    Boxed protocol after := by
  cases step with
  | stop | commit => exact ⟨boxed.queue, boxed.bounded, boxed.size⟩
  | start phase | tickInterval phase | msgHandlingInterval phase | look phase | skip phase | finish phase =>
    exact boxed.same (by rw [phase]; rfl) (by rw [phase]; rfl) (by rw [phase]; rfl) rfl
  | check phase =>
    refine boxed.same (by rw [phase]; rfl) ?_ ?_ rfl <;> rw [phase] <;> cases runner.isRunning <;> rfl
  | leave phase => exact boxed.same (by rw [phase]; rfl) (by rw [phase]; rfl) (by rw [phase]; rfl) rfl
  | @panicked action called =>
    obtain ⟨⟨gone, queue, none⟩, bounded, ⟨counted, short, within, _, size, exact⟩⟩ := boxed
    refine ⟨⟨inHand runner.phase ++ gone, ?_, nofun⟩, bounded, ⟨counted, short, within, nofun, size, exact⟩⟩
    rw [queue, List.append_assoc]
    rfl
  | @receive envelope receiver selecting next =>
    obtain ⟨⟨gone, queue, none⟩, bounded, ⟨counted, short, within, same, size, exact⟩⟩ := boxed
    have live : runner.phase.closed = false := by rw [selecting]; rfl
    obtain rfl := none live
    obtain rfl : counted = [] := by rw [same live, selecting]; rfl
    rw [selecting, next] at queue
    rw [next] at bounded
    exact ⟨⟨[], queue, fun _ => rfl⟩, Nat.le_of_succ_le bounded,
      ⟨[], short, within, fun _ => rfl, size, exact⟩⟩
  | called called =>
    cases call_cases called with
    | ticked phase | updated phase | applied phase | took phase =>
      exact boxed.same (by rw [phase]; rfl) (by rw [phase]; rfl) (by rw [phase]; rfl) rfl
    | @counted envelope size phase added =>
      obtain ⟨⟨gone, queue, none⟩, bounded, ⟨counted, _, _, same, size, exact⟩⟩ := boxed
      have live : runner.phase.closed = false := by rw [phase]; rfl
      obtain rfl := none live
      obtain rfl : counted = [] := by rw [same live, phase]; rfl
      obtain ⟨sum, checked⟩ := addSize_toNat added
      rw [phase] at queue
      rw [List.append_nil] at size exact
      refine ⟨⟨[], queue, fun _ => rfl⟩, bounded, ⟨[envelope], Nat.le_refl 1, ?_, fun _ => rfl, ?_, ?_⟩⟩
      · exact ⟨runner.receiver, by rw [queue, List.append_assoc]; rfl⟩
      · rw [sum, size, totalSize_snoc, Nat.mod_add_mod]
      · intro enabled
        have below := checked enabled
        rw [size, Nat.mod_eq_of_lt (exact enabled)] at below
        rw [totalSize_snoc]
        exact below
    | @handled envelope omniDurability phase =>
      obtain ⟨⟨gone, queue, none⟩, bounded, ⟨counted, _, within, same, size, exact⟩⟩ := boxed
      have live : runner.phase.closed = false := by rw [phase]; rfl
      obtain rfl := none live
      obtain rfl : counted = [envelope] := by rw [same live, phase]; rfl
      rw [phase] at queue
      refine ⟨⟨[], ?_, fun _ => rfl⟩, bounded, ⟨[], Nat.zero_le 1, ?_, fun _ => rfl, ?_, ?_⟩⟩
      · rw [queue, List.append_assoc]
        rfl
      · rw [List.append_nil]
        exact within
      · rw [List.append_nil]
        exact size
      · rw [List.append_nil]
        exact exact

theorem Boxed.changes {event : Network.Event} {nodeId : NodeId} (boxed : Boxed protocol runner)
    (changes : Changes protocol event nodeId runner after) : Boxed protocol after := by
  cases changes with
  | task step => exact boxed.step step
  | sent awaits => exact boxed.same (by rw [awaits]; rfl) (by rw [awaits]; rfl) (by rw [awaits]; rfl) rfl
  | accepted message live room =>
    obtain ⟨⟨gone, queue, none⟩, bounded, ⟨counted, short, within, same, size, exact⟩⟩ := boxed
    refine ⟨⟨gone, ?_, none⟩, ?_,
      ⟨counted, short, within.trans (List.prefix_append _ _), same, size, exact⟩⟩
    · simp only [Runner.accept, queue, List.append_assoc]
    · rw [Runner.accept, List.length_append]
      exact room
  | stroke stroke =>
    rw [stroke_frame]
    exact ⟨boxed.queue, boxed.bounded, boxed.size⟩

end Runner

section Links
variable [BuildProfile] {protocol : Protocol σ Msg} {servers : List NodeId}
  {network after : Network σ Msg} {event : Network.Event}

theorem network_kept {start : Network σ Msg} {events : List Network.Event}
    (spawned : spawnNodes protocol servers = some start)
    (run : Run (Network.Moves protocol) start events network) (nodeId : NodeId) (runner : Runner σ Msg)
    (found : network.runners.lookup nodeId = some runner) :
    Addressed protocol servers runner ∧ Boxed protocol runner := by
  refine runners_invariant run (fun _ runner => Addressed protocol servers runner ∧
    Boxed protocol runner) (fun _ _ => trivial) ?_ ?_
    nodeId runner found
  · intro nodeId runner found
    obtain ⟨_, omniDurability, rfl⟩ := spawn_found spawned found
    refine ⟨⟨?_, nofun, nofun⟩, ⟨⟨[], rfl, fun _ => rfl⟩, Nat.zero_le _,
      ⟨[], Nat.zero_le 1, List.prefix_rfl, fun _ => rfl, rfl, fun _ => Nat.two_pow_pos 64⟩⟩⟩
    intro other channel found
    rw [HashMap.lookup_erase_eq, senders_lookup] at found
    split at found
    · cases found
    · split at found <;> cases found
      exact ⟨rfl, ‹_›⟩
  · exact fun _ _ _ _ _ valid changes => ⟨valid.1.changes changes, valid.2.changes changes⟩

/-- Where a link can drop messages. -/
def Lossy (nodeB : NodeId) (sender receiver : Runner σ Msg) : Prop :=
  sender.connections.lookup nodeB = none ∨ receiver.phase.closed = true

/-- What the sender does on its own is a step of each of its links. -/
theorem outgoing_step {nodeB : NodeId} {runner changed : Runner σ Msg} {action : RunnerAction}
    (accepted : List Msg) (step : RunnerStep protocol runner action changed) : ∃ event,
      LinkStep ⟨toward protocol nodeB runner.taken,
        toward protocol nodeB (outMessages runner.phase), accepted⟩ event
        ⟨toward protocol nodeB changed.taken, toward protocol nodeB (outMessages changed.phase), accepted⟩ ∧
      (event = .dropped → runner.connections.lookup nodeB = none) := by
  cases step with
  | stop | commit => exact ⟨.quiet, .quiet, nofun⟩
  | start phase | tickInterval phase | msgHandlingInterval phase | receive phase | leave phase =>
    refine ⟨.quiet, ?_, nofun⟩
    rw [phase]
    exact .quiet
  | check checking =>
    refine ⟨.quiet, ?_, nofun⟩
    rw [checking]
    cases runner.isRunning <;> exact .quiet
  | panicked called =>
    refine ⟨.quiet, ?_, nofun⟩
    rcases call_phase called with phase | phase | phase | phase | ⟨_, phase⟩ | ⟨_, phase⟩ <;>
      rw [phase] <;> exact .quiet
  | called called =>
    cases call_cases called with
    | ticked phase | updated phase | applied phase | counted phase | handled phase =>
      refine ⟨.quiet, ?_, nofun⟩
      rw [phase]
      exact .quiet
    | took phase =>
      refine ⟨.took, ?_, nofun⟩
      rw [phase, toward_append]
      exact .took _ rfl
  | look sends =>
    refine ⟨.quiet, ?_, nofun⟩
    rw [sends]
    exact .quiet
  | @skip message outMessages sends unconnected =>
    rw [sends]
    by_cases here : protocol.getReceiver message = nodeB
    · exact ⟨.dropped, .dropped ((List.sublist_cons_self message outMessages).filter _),
        fun _ => here ▸ unconnected⟩
    · refine ⟨.quiet, ?_, nofun⟩
      simp only [NetworkDelivery.outMessages, toward, List.filter_cons, here, decide_false]
      exact .quiet
  | finish sends =>
    refine ⟨.quiet, ?_, nofun⟩
    rw [sends]
    exact .quiet

theorem accepted_kept {runner changed : Runner σ Msg} {action : RunnerAction}
    (step : RunnerStep protocol runner action changed) :
    changed.accepted = runner.accepted := by
  cases step with
  | called called => cases call_cases called <;> rfl
  | stop | commit | start | check | tickInterval | msgHandlingInterval | panicked | look | skip | finish
  | receive | leave => rfl

omit [BuildProfile] in
theorem found_set {nodeId other : NodeId} {changed runner before : Runner σ Msg}
    (known : network.runners.lookup nodeId = some before)
    (found : (network.set nodeId changed).runners.lookup other = some runner) :
    ∃ old, network.runners.lookup other = some old ∧
      (other = nodeId → old = before ∧ runner = changed) ∧ (other ≠ nodeId → runner = old) := by
  rw [lookup_set] at found
  split at found
  next same =>
    cases found
    exact ⟨before, same ▸ known, fun _ => ⟨rfl, rfl⟩, fun different => absurd same different⟩
  next different => exact ⟨runner, found, fun same => absurd same different, fun _ => rfl⟩

omit [BuildProfile] in
/-- A move of one runner that takes nothing into its channel is a step of each of its links. -/
theorem link_local {nodeId nodeA nodeB : NodeId} {before changed sender receiver : Runner σ Msg}
    {reason : NodeId → Prop} (known : network.runners.lookup nodeId = some before)
    (kept : changed.accepted = before.accepted)
    (outgoing : ∀ nodeB accepted, ∃ event,
      LinkStep ⟨toward protocol nodeB before.taken,
        toward protocol nodeB (outMessages before.phase), accepted⟩ event
        ⟨toward protocol nodeB changed.taken, toward protocol nodeB (outMessages changed.phase), accepted⟩ ∧
      (event = .dropped → reason nodeB))
    (foundA : (network.set nodeId changed).runners.lookup nodeA = some sender)
    (foundB : (network.set nodeId changed).runners.lookup nodeB = some receiver) :
    ∃ oldSender oldReceiver event, network.runners.lookup nodeA = some oldSender ∧
      network.runners.lookup nodeB = some oldReceiver ∧
      LinkStep (linkOf protocol nodeA nodeB oldSender oldReceiver) event
        (linkOf protocol nodeA nodeB sender receiver) ∧
      (event = .dropped → nodeA = nodeId ∧ reason nodeB) ∧ event ≠ .delivered := by
  obtain ⟨oldSender, knownA, hereA, elsewhereA⟩ := found_set known foundA
  obtain ⟨oldReceiver, knownB, hereB, elsewhereB⟩ := found_set known foundB
  have accepted : receiver.accepted = oldReceiver.accepted := by
    by_cases same : nodeB = nodeId
    · obtain ⟨rfl, rfl⟩ := hereB same
      exact kept
    · rw [elsewhereB same]
  by_cases same : nodeA = nodeId
  · obtain ⟨rfl, rfl⟩ := hereA same
    obtain ⟨event, step, drops⟩ := outgoing nodeB (acceptedFrom nodeA oldReceiver.accepted)
    refine ⟨oldSender, oldReceiver, event, knownA, knownB, ?_, fun dropped => ⟨same, drops dropped⟩,
      (Link.accepted_iff step).mpr rfl⟩
    rw [linkOf, linkOf, accepted]
    exact step
  · refine ⟨oldSender, oldReceiver, .quiet, knownA, knownB, ?_, nofun, nofun⟩
    rw [elsewhereA same, linkOf, linkOf, accepted]
    exact .quiet

/-- The sender has waited with a message for this receiver, and goes on to the next. -/
def Delivers (nodeB : NodeId) (sender after : Runner σ Msg) : Prop :=
  ∃ message outMessages, sender.phase = .awaiting nodeB message outMessages ∧
    after.phase = .sending outMessages

/-- Every move of the network is a step of every link, and drops only where the
sender has no connection or the receiver is gone. -/
theorem link_moves {nodeA nodeB : NodeId} {sender receiver : Runner σ Msg}
    (addressed : ∀ nodeId runner, network.runners.lookup nodeId = some runner →
      Addressed protocol servers runner)
    (moves : Network.Moves protocol network event after)
    (foundA : after.runners.lookup nodeA = some sender)
    (foundB : after.runners.lookup nodeB = some receiver) :
    ∃ oldSender oldReceiver event, network.runners.lookup nodeA = some oldSender ∧
      network.runners.lookup nodeB = some oldReceiver ∧
      LinkStep (linkOf protocol nodeA nodeB oldSender oldReceiver) event
        (linkOf protocol nodeA nodeB sender receiver) ∧
      (event = .dropped → Lossy nodeB oldSender oldReceiver) ∧
      (event = .delivered → Delivers nodeB oldSender sender) := by
  cases moves with
  | @runner nodeId action before changed found step =>
    obtain ⟨oldSender, oldReceiver, event, knownA, knownB, linked, drops, undelivered⟩ :=
      link_local found (accepted_kept step) (fun _ accepted => outgoing_step accepted step) foundA foundB
    refine ⟨oldSender, oldReceiver, event, knownA, knownB, linked, ?_,
      fun delivered => absurd delivered undelivered⟩
    intro dropped
    obtain ⟨rfl, unconnected⟩ := drops dropped
    obtain rfl := Option.some.inj (found.symm.trans knownA)
    exact .inl unconnected
  | @lost nodeId before target channel message outMessages found awaits receives closed =>
    have leads := ((addressed _ _ found).awaits _ _ _ awaits).1
    have outgoing (nodeB : NodeId) (accepted : List Msg) : ∃ event,
        LinkStep ⟨toward protocol nodeB before.taken,
          toward protocol nodeB (NetworkDelivery.outMessages before.phase), accepted⟩ event
          ⟨toward protocol nodeB before.taken, toward protocol nodeB outMessages, accepted⟩ ∧
            (event = .dropped → nodeB = channel) := by
      rw [awaits]
      by_cases here : protocol.getReceiver message = nodeB
      · exact ⟨.dropped, .dropped ((List.sublist_cons_self message outMessages).filter _),
          fun _ => (leads.trans here).symm⟩
      · refine ⟨.quiet, ?_, nofun⟩
        simp only [NetworkDelivery.outMessages, toward, List.filter_cons, here, decide_false]
        exact .quiet
    have kept : (before.sent outMessages).accepted = before.accepted := rfl
    obtain ⟨oldSender, oldReceiver, event, knownA, knownB, linked, drops, undelivered⟩ :=
      link_local found kept outgoing foundA foundB
    refine ⟨oldSender, oldReceiver, event, knownA, knownB, linked, ?_,
      fun delivered => absurd delivered undelivered⟩
    intro dropped
    obtain ⟨_, rfl⟩ := drops dropped
    obtain rfl := Option.some.inj (receives.symm.trans knownB)
    exact .inr closed
  | @delivered nodeId before target channel message outMessages found awaits receives live room =>
    have leads := ((addressed _ _ found).awaits _ _ _ awaits).1
    obtain ⟨middleA, knownA, acceptsA, quietA⟩ := found_set receives foundA
    obtain ⟨middleB, knownB, acceptsB, quietB⟩ := found_set receives foundB
    obtain ⟨oldSender, oldA, sendsA, sameA⟩ := found_set found knownA
    obtain ⟨oldReceiver, oldB, sendsB, sameB⟩ := found_set found knownB
    -- An acceptance does not touch what the sender side of a link sees, nor a send what the
    -- receiver side sees.
    have taken : sender.taken = middleA.taken ∧ sender.phase = middleA.phase := by
      by_cases same : nodeA = channel
      · obtain ⟨rfl, rfl⟩ := acceptsA same
        exact ⟨rfl, rfl⟩
      · rw [quietA same]
        exact ⟨rfl, rfl⟩
    have accepted : oldReceiver.accepted = middleB.accepted := by
      by_cases same : nodeB = nodeId
      · obtain ⟨rfl, rfl⟩ := sendsB same
        rfl
      · rw [sameB same]
    by_cases here : nodeA = nodeId
    · obtain ⟨rfl, rfl⟩ := sendsA here
      by_cases there : nodeB = channel
      · obtain ⟨rfl, rfl⟩ := acceptsB there
        refine ⟨oldSender, oldReceiver, .delivered, oldA, oldB, ?_, nofun,
          fun _ => ⟨message, outMessages, there ▸ awaits, taken.2⟩⟩
        rw [linkOf, linkOf, taken.1, taken.2, awaits, accepted, Runner.accept, acceptedFrom_append]
        have own : acceptedFrom nodeA [⟨nodeId, message⟩] = [message] := by
          simp [acceptedFrom, here]
        have first : toward protocol nodeB (message :: outMessages) =
            message :: toward protocol nodeB outMessages := by
          simp [toward, leads.symm, there]
        rw [own]
        exact .delivered first
      · refine ⟨oldSender, oldReceiver, .quiet, oldA, oldB, ?_, nofun, nofun⟩
        have elsewhere : protocol.getReceiver message ≠ nodeB :=
          fun same => there (same.symm.trans leads.symm)
        have skipped : toward protocol nodeB (message :: outMessages) =
            toward protocol nodeB outMessages := by
          simp [toward, elsewhere]
        rw [linkOf, linkOf, taken.1, taken.2, awaits, accepted, ← quietB there,
          NetworkDelivery.outMessages, skipped]
        exact .quiet
    · refine ⟨oldSender, oldReceiver, .quiet, oldA, oldB, ?_, nofun, nofun⟩
      have heard : acceptedFrom nodeA receiver.accepted = acceptedFrom nodeA middleB.accepted := by
        by_cases there : nodeB = channel
        · obtain ⟨rfl, rfl⟩ := acceptsB there
          rw [Runner.accept, acceptedFrom_append]
          have foreign : acceptedFrom nodeA [⟨nodeId, message⟩] = [] := by
            simp [acceptedFrom, Ne.symm here]
          rw [foreign, List.append_nil]
        · rw [quietB there]
      rw [linkOf, linkOf, taken.1, taken.2, accepted, heard, sameA here]
      exact .quiet
  | deleteConnections | reconnectNodes =>
    exact ⟨sender, receiver, .quiet, foundA, foundB, .quiet, nofun, nofun⟩
  | @stroke stroke rest before next found alive =>
    have kept : (before.stroke stroke).accepted = before.accepted := by rw [stroke_frame]
    have outgoing (nodeB : NodeId) (accepted : List Msg) : ∃ event,
        LinkStep ⟨toward protocol nodeB before.taken,
          toward protocol nodeB (outMessages before.phase), accepted⟩ event
          ⟨toward protocol nodeB (before.stroke stroke).taken,
            toward protocol nodeB (outMessages (before.stroke stroke).phase), accepted⟩ ∧
        (event = .dropped → False) := by
      rw [stroke_frame]
      exact ⟨.quiet, .quiet, nofun⟩
    obtain ⟨oldSender, oldReceiver, event, knownA, knownB, linked, drops, undelivered⟩ :=
      link_local found kept outgoing foundA foundB
    exact ⟨oldSender, oldReceiver, event, knownA, knownB, linked, fun dropped => (drops dropped).2.elim,
      fun delivered => absurd delivered undelivered⟩

/-- A runner that is gone does not come back. -/
theorem closed_stays {nodeId : NodeId} {runner changed : Runner σ Msg} (closed : runner.phase.closed = true)
    (changes : Changes protocol event nodeId runner changed) : changed.phase.closed = true := by
  cases changes with
  | task step =>
    cases step with
    | stop | commit => exact closed
    | start phase | check phase | tickInterval phase | msgHandlingInterval phase | look phase | skip phase
    | finish phase | receive phase =>
      rw [phase] at closed
      cases closed
    | leave => rfl
    | called called | panicked called =>
      rcases call_phase called with phase | phase | phase | phase | ⟨_, phase⟩ | ⟨_, phase⟩ <;>
        rw [phase] at closed <;>
        cases closed
  | sent awaits =>
    rw [awaits] at closed
    cases closed
  | accepted => exact closed
  | stroke stroke =>
    rw [stroke_phase]
    exact closed

theorem live_before {nodeId : NodeId} {runner later : Runner σ Msg}
    (moves : Network.Moves protocol network event after)
    (known : network.runners.lookup nodeId = some runner)
    (found : after.runners.lookup nodeId = some later) (live : later.phase.closed = false) :
    runner.phase.closed = false := by
  have kept :=
    moves_keep (fun other changed => other = nodeId → runner.phase.closed = true →
      changed.phase.closed = true)
    ?_ ?_ moves nodeId later found rfl
  · rw [Bool.eq_false_iff]
    exact fun closed => Bool.eq_false_iff.mp live (kept closed)
  · intro other changed foundOther same
    subst same
    rw [known] at foundOther
    cases foundOther
    exact id
  · exact fun _ _ _ valid changes same closed => closed_stays (valid same closed) changes

theorem connection_stays {nodeId nodeA nodeB : NodeId} {runner changed : Runner σ Msg}
    (uncut : event ≠ .stroke (.cut nodeA nodeB)) (addressed : Addressed protocol servers runner)
    (connected : nodeId = nodeA → runner.connections.lookup nodeB = some nodeB)
    (changes : Changes protocol event nodeId runner changed) :
    nodeId = nodeA → changed.connections.lookup nodeB = some nodeB := by
  intro same
  have before := connected same
  cases changes with
  | task step =>
    cases step with
    | called called => cases call_cases called <;> exact before
    | stop | commit | start | check | tickInterval | msgHandlingInterval | panicked | look | skip | finish
    | receive | leave => exact before
  | sent | accepted => exact before
  | stroke stroke =>
    cases stroke with
    | cut cutNode other =>
      have different : nodeB ≠ other := by
        rintro rfl
        exact uncut (congrArg (fun node => Network.Event.stroke (.cut node nodeB)) same)
      simp only [Runner.stroke, Runner.cut]
      split <;> simp only [Finmap.lookup_erase_ne different, before]
    | restore restored other =>
      simp only [Runner.stroke, Runner.restore]
      split
      next connection known =>
        obtain ⟨rfl, _⟩ := addressed.disconnected other connection known
        rw [HashMap.lookup_insert_eq]
        split
        next here => rw [here]
        next => exact before
      next => exact before

end Links

section Runs
variable [BuildProfile] {protocol : Protocol σ Msg} {servers : List NodeId}
  {start network : Network σ Msg} {events : List Network.Event}
  (spawned : spawnNodes protocol servers = some start)
  (run : Run (Network.Moves protocol) start events network)
include spawned run

theorem links_ordered {nodeA nodeB : NodeId} {sender receiver : Runner σ Msg}
    (foundA : network.runners.lookup nodeA = some sender)
    (foundB : network.runners.lookup nodeB = some receiver) :
    (linkOf protocol nodeA nodeB sender receiver).Ordered := by
  induction run generalizing sender receiver with
  | nil =>
    obtain ⟨_, _, rfl⟩ := spawn_found spawned foundA
    obtain ⟨_, _, rfl⟩ := spawn_found spawned foundB
    exact List.Sublist.refl _
  | snoc before last ih =>
    obtain ⟨oldSender, oldReceiver, event, knownA, knownB, step, _⟩ :=
      link_moves (fun nodeId runner found => (network_kept spawned before nodeId runner found).1) last
        foundA foundB
    exact Link.ordered_step (ih knownA knownB) step

/-- The messages of one node to another are handled in the order in which they
were taken from OmniPaxos, none twice and none that was not taken. The channels
keep their bound, and the sizes handled are counted, with that of the message that
is about to be, up to the width of a `u64`. -/
theorem messages_handled_in_order :
    (∀ nodeA nodeB sender receiver, network.runners.lookup nodeA = some sender →
      network.runners.lookup nodeB = some receiver →
      (acceptedFrom nodeA receiver.handled ++
        (acceptedFrom nodeA (inHand receiver.phase ++ receiver.receiver) ++
        toward protocol nodeB (outMessages sender.phase))).Sublist (toward protocol nodeB sender.taken)) ∧
    ∀ nodeId runner, network.runners.lookup nodeId = some runner → runner.receiver.length ≤ msgBufferSize ∧
      ∃ counted, counted.length ≤ 1 ∧ runner.handled ++ counted <+: runner.accepted ∧
        (runner.phase.closed = false → counted = counting runner.phase) ∧
        runner.receivedMessagesSize.toNat = totalSize protocol (runner.handled ++ counted) % 2 ^ 64 ∧
        (BuildProfile.overflowChecks = true →
          runner.receivedMessagesSize.toNat = totalSize protocol (runner.handled ++ counted)) := by
  refine ⟨?_, ?_⟩
  · intro nodeA nodeB sender receiver foundA foundB
    have ordered := links_ordered spawned run foundA foundB
    obtain ⟨gone, queue, _⟩ := (network_kept spawned run nodeB receiver foundB).2.queue
    rw [Link.Ordered, linkOf, queue] at ordered
    refine List.Sublist.trans ?_ ordered
    simp only [acceptedFrom_append, List.append_assoc]
    exact ((List.sublist_append_right _ _).append_left _).append_left _
  · intro nodeId runner found
    obtain ⟨_, _, bounded, ⟨counted, short, within, same, size, exact⟩⟩ :=
      network_kept spawned run nodeId runner found
    refine ⟨bounded, counted, short, within, same, size, ?_⟩
    intro enabled
    rw [size, Nat.mod_eq_of_lt (exact enabled)]

theorem link_whole {nodeA nodeB : NodeId} (different : nodeA ≠ nodeB)
    (uncut : .stroke (.cut nodeA nodeB) ∉ events) {sender receiver : Runner σ Msg}
    (foundA : network.runners.lookup nodeA = some sender)
    (foundB : network.runners.lookup nodeB = some receiver) (live : receiver.phase.closed = false) :
    (linkOf protocol nodeA nodeB sender receiver).Whole ∧ sender.connections.lookup nodeB = some nodeB := by
  induction run generalizing sender receiver with
  | nil =>
    obtain ⟨_, _, rfl⟩ := spawn_found spawned foundA
    obtain ⟨member, _, rfl⟩ := spawn_found spawned foundB
    refine ⟨rfl, ?_⟩
    rw [HashMap.lookup_erase_eq, if_neg (Ne.symm different), senders_lookup, if_pos member]
  | snoc before last ih =>
    have kept := network_kept spawned before
    obtain ⟨oldSender, oldReceiver, event, knownA, knownB, step, drops, _⟩ :=
      link_moves (fun nodeId runner found => (kept nodeId runner found).1) last foundA foundB
    rw [List.mem_append, List.mem_singleton, not_or] at uncut
    have alive := live_before last knownB foundB live
    obtain ⟨whole, connected⟩ := ih uncut.1 knownA knownB alive
    refine ⟨Link.whole_step whole step ?_, ?_⟩
    · intro dropped
      rcases drops dropped with unconnected | closed
      · rw [connected] at unconnected
        cases unconnected
      · rw [alive] at closed
        cases closed
    · refine moves_keep (fun nodeId runner => Addressed protocol servers runner ∧
        (nodeId = nodeA → runner.connections.lookup nodeB = some nodeB))
        ?_ ?_ last nodeA sender foundA |>.2 rfl
      · intro nodeId runner found
        refine ⟨(kept nodeId runner found).1, ?_⟩
        rintro rfl
        obtain rfl := Option.some.inj (knownA.symm.trans found)
        exact connected
      · intro nodeId runner changed valid changes
        exact ⟨valid.1.changes changes,
          connection_stays (fun same => uncut.2 same.symm) valid.1 valid.2 changes⟩

/-- As long as the connection is not cut and the receiver is not gone, each message
taken for it has been handled, is in its hands, or waits in its channel or to be sent. -/
theorem connected_nodes_lose_nothing {nodeA nodeB : NodeId} (different : nodeA ≠ nodeB)
    (uncut : .stroke (.cut nodeA nodeB) ∉ events) {sender receiver : Runner σ Msg}
    (foundA : network.runners.lookup nodeA = some sender)
    (foundB : network.runners.lookup nodeB = some receiver) (live : receiver.phase.closed = false) :
    acceptedFrom nodeA receiver.handled ++
      (acceptedFrom nodeA (inHand receiver.phase ++ receiver.receiver) ++
      toward protocol nodeB (outMessages sender.phase)) = toward protocol nodeB sender.taken := by
  obtain ⟨whole, _⟩ := link_whole spawned run different uncut foundA foundB live
  obtain ⟨gone, queue, none⟩ := (network_kept spawned run nodeB receiver foundB).2.queue
  rw [Link.Whole, linkOf, queue, none live, List.nil_append, acceptedFrom_append,
    List.append_assoc] at whole
  exact whole

end Runs

theorem messages_handled_in_order_exchange : ∃ start events network sender receiver,
    spawnNodes (greetings none 1) [1, 2] = some start ∧
    Run (@Network.Moves _ _ ⟨true⟩ (greetings none 1)) start events network ∧
    network.runners.lookup 1 = some sender ∧ network.runners.lookup 2 = some receiver ∧
    (acceptedFrom 1 receiver.handled ++ (acceptedFrom 1 (inHand receiver.phase ++ receiver.receiver) ++
      toward (greetings none 1) 2 (outMessages sender.phase))).Sublist
        (toward (greetings none 1) 2 sender.taken) ∧
    receiver.receivedMessagesSize.toNat = 1 := by
  let : BuildProfile := ⟨true⟩
  obtain ⟨start, network, sender, receiver, spawned, run, foundA, _, _, foundB, handled, phase, _⟩ :=
    greetings_exchange
  obtain ⟨ordered, counted⟩ := messages_handled_in_order spawned run
  refine ⟨start, _, network, sender, receiver, spawned, run, foundA, foundB, ?_, ?_⟩
  · exact ordered 1 2 sender receiver foundA foundB
  · obtain ⟨_, none, _, _, same, _, exact⟩ := counted 2 receiver foundB
    obtain rfl : none = [] := by rw [same (by rw [phase]; rfl), phase]; rfl
    rw [exact rfl, handled]
    rfl

theorem connected_nodes_lose_nothing_exchange : ∃ start events network sender receiver,
    spawnNodes (greetings none 1) [1, 2] = some start ∧
    Run (@Network.Moves _ _ ⟨true⟩ (greetings none 1)) start events network ∧
    network.runners.lookup 1 = some sender ∧ network.runners.lookup 2 = some receiver ∧
    acceptedFrom 1 receiver.handled = [2] ∧
    acceptedFrom 1 receiver.handled ++ (acceptedFrom 1 (inHand receiver.phase ++ receiver.receiver) ++
      toward (greetings none 1) 2 (outMessages sender.phase)) =
        toward (greetings none 1) 2 sender.taken := by
  let : BuildProfile := ⟨true⟩
  obtain ⟨start, network, sender, receiver, spawned, run, foundA, _, _, foundB, handled, phase, _⟩ :=
    greetings_exchange
  refine ⟨start, _, network, sender, receiver, spawned, run, foundA, foundB, ?_, ?_⟩
  · rw [handled]
    rfl
  · exact connected_nodes_lose_nothing spawned run (by decide)
      (by simp [greeting]) foundA foundB (by rw [phase]; rfl)

end OmniSpacetimeDb.Proofs.NetworkDelivery
