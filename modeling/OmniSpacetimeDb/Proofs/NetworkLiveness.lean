import OmniSpacetimeDb.Proofs.NetworkRank
import OmniSpacetimeDb.Foundations.Schedule

/-! What arrives in the end. A runner that goes on with its messages hands over each
of them that has a connection, and one that goes on receiving handles them all. -/

namespace OmniSpacetimeDb.Proofs.NetworkLiveness
open Foundations Datastore Durability Cluster NetworkTraffic NetworkDelivery NetworkTopology
  NetworkStalls NetworkNodes NetworkRank
variable {σ Msg : Type}

/-- What a runner has taken, accepted and handled is only added to. -/
structure Grows (before after : Runner σ Msg) : Prop where
  taken : before.taken <+: after.taken
  accepted : before.accepted <+: after.accepted
  handled : before.handled <+: after.handled

theorem Grows.of_eq {before after : Runner σ Msg} (taken : after.taken = before.taken)
    (accepted : after.accepted = before.accepted) (handled : after.handled = before.handled) :
    Grows before after := by
  constructor
  · rw [taken]
  · rw [accepted]
  · rw [handled]

theorem Grows.trans {before middle after : Runner σ Msg} (first : Grows before middle)
    (second : Grows middle after) : Grows before after :=
  ⟨first.taken.trans second.taken, first.accepted.trans second.accepted, first.handled.trans second.handled⟩

section Steps
variable [BuildProfile] {protocol : Protocol σ Msg} {network after : Network σ Msg}
  {event : Network.Event} {nodeId : NodeId}
  {runner changed : Runner σ Msg}

theorem grows_changes (changes : Changes protocol event nodeId runner changed) : Grows runner changed := by
  cases changes with
  | task step =>
    cases step with
    | called called =>
      cases call_cases called with
      | ticked | updated | applied | counted => exact .of_eq rfl rfl rfl
      | took => exact ⟨List.prefix_append _ _, List.prefix_rfl, List.prefix_rfl⟩
      | handled => exact ⟨List.prefix_rfl, List.prefix_rfl, List.prefix_append _ _⟩
    | stop | commit | start | check | tickInterval | msgHandlingInterval | panicked | look | skip | finish
    | receive | leave => exact .of_eq rfl rfl rfl
  | sent => exact .of_eq rfl rfl rfl
  | accepted => exact ⟨List.prefix_rfl, List.prefix_append _ _, List.prefix_rfl⟩
  | stroke stroke =>
    rw [stroke_frame]
    exact .of_eq rfl rfl rfl

theorem grows_moves (moves : Network.Moves protocol network event after)
    (found : network.runners.lookup nodeId = some runner) :
    ∃ later, after.runners.lookup nodeId = some later ∧ Grows runner later := by
  have present : nodeId ∈ after.runners :=
    (moves_nodes moves nodeId).mpr (Finmap.mem_of_lookup_eq_some found)
  obtain ⟨later, known⟩ := Finmap.mem_iff.mp present
  refine ⟨later, known, ?_⟩
  refine moves_keep (fun other changed => other = nodeId → Grows runner changed) ?_ ?_ moves
    nodeId later known rfl
  · intro other changed found' same
    subst same
    obtain rfl := Option.some.inj (found.symm.trans found')
    exact .of_eq rfl rfl rfl
  · exact fun _ _ _ valid changes same => (valid same).trans (grows_changes changes)

theorem grows_run {events : List Network.Event}
    (run : Run (Network.Moves protocol) network events after)
    (found : network.runners.lookup nodeId = some runner) :
    ∃ later, after.runners.lookup nodeId = some later ∧ Grows runner later := by
  induction run with
  | nil => exact ⟨runner, found, .of_eq rfl rfl rfl⟩
  | snoc before last ih =>
    obtain ⟨middle, known, first⟩ := ih
    obtain ⟨later, final, second⟩ := grows_moves last known
    exact ⟨later, final, first.trans second⟩

/-- A runner that is not gone at the end has not been gone before. -/
theorem live_run {events : List Network.Event} (run : Run (Network.Moves protocol) network events after)
    (found : network.runners.lookup nodeId = some runner) {later : Runner σ Msg}
    (known : after.runners.lookup nodeId = some later) (live : later.phase.closed = false) :
    runner.phase.closed = false := by
  induction run generalizing later with
  | nil =>
    obtain rfl := Option.some.inj (found.symm.trans known)
    exact live
  | snoc before last ih =>
    obtain ⟨middle, between, _⟩ := grows_run before found
    exact ih between (live_before last between known live)

/-- Only its own task moves a runner on. -/
theorem phase_kept (moves : Network.Moves protocol network event after)
    (found : network.runners.lookup nodeId = some runner) (other : event.mover ≠ some nodeId)
    {later : Runner σ Msg} (known : after.runners.lookup nodeId = some later) :
    later.phase = runner.phase := by
  refine moves_keep (fun other changed => other = nodeId → changed.phase = runner.phase) ?_ ?_ moves
    nodeId later known rfl
  · rintro _ changed found' rfl
    rw [Option.some.inj (found.symm.trans found')]
  · rintro _ before changed valid changes rfl
    rw [← valid rfl]
    cases changes with
    | @task _ action _ _ step =>
      cases action with
      | stop =>
        cases step with
        | stop => rfl
        | called called | panicked called => cases called
      | commit =>
        cases step with
        | commit => rfl
        | called called | panicked called => cases called
      | start | check | tickInterval | tick | msgHandlingInterval | updateLeader | applyReplicatedTxns
      | take | look | finish | receive | count | handle | leave =>
        exact absurd rfl other
    | sent => exact absurd rfl other
    | accepted => rfl
    | stroke stroke => exact stroke_phase before stroke

theorem phase_kept_run {events : List Network.Event}
    (run : Run (Network.Moves protocol) network events after)
    (found : network.runners.lookup nodeId = some runner)
    (others : ∀ event ∈ events, event.mover ≠ some nodeId) {later : Runner σ Msg}
    (known : after.runners.lookup nodeId = some later) : later.phase = runner.phase := by
  induction run generalizing later with
  | nil => rw [Option.some.inj (found.symm.trans known)]
  | snoc before last ih =>
    obtain ⟨middle, between, _⟩ := grows_run before found
    have same := ih (fun event member => others event (List.mem_append_left _ member)) between
    exact (phase_kept last between (others _ (List.mem_append_right _ List.mem_cons_self)) known).trans same

/-- A runner in the middle of its messages gets no more to do, whatever moves. -/
theorem share_lowers (moves : Network.Moves protocol network event after)
    (found : network.runners.lookup nodeId = some runner) (sending : outMessages runner.phase ≠ []) :
    share after nodeId ≤ share network nodeId := by
  have ends : Ends runner := by
    intro checking
    rw [checking] at sending
    exact absurd rfl sending
  by_cases moved : event.mover = some nodeId
  · exact le_of_lt (mover_falls found ends moves moved)
  · obtain ⟨later, known, _⟩ := grows_moves moves found
    rw [share_eq found, share_eq known, phase_kept moves found moved known]

end Steps

section Schedules
variable [BuildProfile] {protocol : Protocol σ Msg}
  (schedule : Schedule (Network.Moves protocol)) (nodeId : NodeId)

/-- As long as the runner has messages to hand over, it goes on at some later time. -/
def Sends : Prop :=
  ∀ time runner, (schedule.states time).runners.lookup nodeId = some runner →
    outMessages runner.phase ≠ [] →
  ∃ later event, time ≤ later ∧ schedule.events later = some event ∧ event.mover = some nodeId

/-- As long as the runner has a message in hand or in its channel, it handles one at some
later time. -/
def Receives : Prop := ∀ time runner, (schedule.states time).runners.lookup nodeId = some runner →
  inHand runner.phase ++ runner.receiver ≠ [] →
  ∃ later, time ≤ later ∧ schedule.events later = some (.runner nodeId .handle)

/-- The runner neither ends nor panics. -/
def Lives : Prop :=
  ∀ time runner, (schedule.states time).runners.lookup nodeId = some runner → runner.phase.closed = false

variable {schedule nodeId}

/-- The messages that were taken are all handed over, or dropped, at some time. -/
theorem used_up (sends : Sends schedule nodeId) (start : Nat) : ∃ time, start ≤ time ∧
    ∀ runner, (schedule.states time).runners.lookup nodeId = some runner →
      outMessages runner.phase = [] := by
  have busy {network : Network σ Msg}
      (left : ¬ ∀ runner, network.runners.lookup nodeId = some runner → outMessages runner.phase = []) :
      ∃ runner, network.runners.lookup nodeId = some runner ∧ outMessages runner.phase ≠ [] := by
    push Not at left
    exact left
  apply @Schedule.leads_to _ _ _ _ _ (fun network => share network nodeId) _ schedule
    (fun network => ∀ runner, network.runners.lookup nodeId = some runner → outMessages runner.phase = [])
    (fun event => decide (event.mover = some nodeId)) start
  · intro time _ left
    obtain ⟨runner, found, sending⟩ := busy left
    obtain ⟨later, event, passed, known, moved⟩ := sends time runner found sending
    exact ⟨later, event, passed, known, decide_eq_true moved⟩
  · intro time event _ left known
    obtain ⟨runner, found, sending⟩ := busy left
    exact share_lowers (schedule.moved known) found sending
  · intro time event _ left known moved
    obtain ⟨runner, found, sending⟩ := busy left
    refine mover_falls found ?_ (schedule.moved known) (of_decide_eq_true moved)
    intro checking
    rw [checking] at sending
    exact absurd rfl sending

def isHandle (nodeId : NodeId) : Network.Event → Bool
  | .runner other .handle => decide (other = nodeId)
  | _ => false

omit [BuildProfile] in
theorem isHandle_iff {event : Network.Event} :
    isHandle nodeId event = true ↔ event = .runner nodeId .handle := by
  cases event with
  | runner other action => cases action <;> simp [isHandle]
  | deliver | deleteConnections | reconnectNodes | stroke => simp [isHandle]

/-- How many of these envelopes the runner has not handled yet. -/
def unhandled (nodeId : NodeId) (count : Nat) (network : Network σ Msg) : Nat :=
  match network.runners.lookup nodeId with
  | some runner => count - runner.handled.length
  | none => 0

omit [BuildProfile] in
theorem unhandled_eq {count : Nat} {network : Network σ Msg} {runner : Runner σ Msg}
    (found : network.runners.lookup nodeId = some runner) :
    unhandled nodeId count network = count - runner.handled.length := by
  rw [unhandled, found]

theorem handle_grows {network after : Network σ Msg} {runner later : Runner σ Msg}
    (found : network.runners.lookup nodeId = some runner)
    (moves : Network.Moves protocol network (.runner nodeId .handle) after)
    (known : after.runners.lookup nodeId = some later) (live : later.phase.closed = false) :
    later.handled.length = runner.handled.length + 1 := by
  cases moves with
  | runner found' step =>
    obtain rfl := Option.some.inj (found.symm.trans found')
    rw [set_self] at known
    cases known
    cases step with
    | panicked => cases live
    | called called =>
      cases call_cases called with
      | handled => exact List.length_append

/-- What has been accepted at one time is all handled at some later time. -/
theorem caught_up (receives : Receives schedule nodeId) (lives : Lives schedule nodeId) {start : Nat}
    {runner : Runner σ Msg} (found : (schedule.states start).runners.lookup nodeId = some runner)
    (queues : ∀ time other, (schedule.states time).runners.lookup nodeId = some other →
      other.accepted = other.handled ++ (inHand other.phase ++ other.receiver)) :
    ∃ time later, start ≤ time ∧ (schedule.states time).runners.lookup nodeId = some later ∧
      runner.accepted <+: later.handled := by
  have grown {time : Nat} (passed : start ≤ time) :
      ∃ later, (schedule.states time).runners.lookup nodeId = some later ∧ Grows runner later := by
    obtain ⟨more, rfl⟩ := Nat.exists_eq_add_of_le passed
    obtain ⟨_, run, _⟩ := (schedule.onward start).run more
    exact grows_run run found
  have behind {time : Nat} (left : ¬ ∀ other, (schedule.states time).runners.lookup nodeId = some other →
      runner.accepted.length ≤ other.handled.length) :
        ∃ other, (schedule.states time).runners.lookup nodeId = some other ∧
        other.handled.length < runner.accepted.length := by
    push Not at left
    exact left
  obtain ⟨time, passed, reached⟩ : ∃ time, start ≤ time ∧
    ∀ other, (schedule.states time).runners.lookup nodeId = some other →
      runner.accepted.length ≤ other.handled.length := by
    apply @Schedule.leads_to _ _ _ _ _ (unhandled nodeId runner.accepted.length) _ schedule
      (fun network => ∀ other, network.runners.lookup nodeId = some other →
        runner.accepted.length ≤ other.handled.length)
      (isHandle nodeId) start
    · intro time passed left
      obtain ⟨other, known, short⟩ := behind left
      obtain ⟨later, same, grows⟩ := grown passed
      obtain rfl := Option.some.inj (known.symm.trans same)
      have waiting : inHand other.phase ++ other.receiver ≠ [] := by
        intro empty
        have accepted := grows.accepted.length_le
        rw [queues time other known, empty, List.append_nil] at accepted
        exact absurd short (Nat.not_lt_of_le accepted)
      obtain ⟨later, after, known⟩ := receives time other known waiting
      exact ⟨later, _, after, known, decide_eq_true rfl⟩
    · intro time event _ left known
      obtain ⟨other, found, _⟩ := behind left
      obtain ⟨later, final, grows⟩ := grows_moves (schedule.moved known) found
      rw [unhandled_eq found, unhandled_eq final]
      exact Nat.sub_le_sub_left grows.handled.length_le _
    · intro time event _ left known marked
      obtain ⟨other, found, short⟩ := behind left
      obtain ⟨later, final, _⟩ := grows_moves (schedule.moved known) found
      rw [isHandle_iff] at marked
      subst marked
      rw [unhandled_eq found, unhandled_eq final,
        handle_grows found (schedule.moved known) final (lives _ later final)]
      exact Nat.sub_succ_lt_self _ _ short
  obtain ⟨later, known, grows⟩ := grown passed
  refine ⟨time, later, passed, known, ?_⟩
  have accepted := grows.accepted
  rw [queues time later known] at accepted
  exact List.prefix_of_prefix_length_le accepted (List.prefix_append _ _) (reached later known)

end Schedules

theorem acceptedFrom_grows (sender : NodeId) {first second : List (Envelope Msg)}
    (grows : first <+: second) :
    acceptedFrom sender first <+: acceptedFrom sender second :=
  (grows.filter _).map _

section Arrival
variable [BuildProfile] {protocol : Protocol σ Msg} {servers : List NodeId}
  {schedule : Schedule (Network.Moves protocol)}

/-- Every message that a node takes for another one is handled there in the end, and
in order, if the connection is never cut, the sender goes on as long as it has messages,
and the receiver stays alive and goes on as long as there are any in its channel. -/
theorem messages_arrive {nodeA nodeB : NodeId}
    (spawned : spawnNodes protocol servers = some (schedule.states 0)) (different : nodeA ≠ nodeB)
    (member : nodeB ∈ servers)
    (uncut : ∀ time, schedule.events time ≠ some (.stroke (.cut nodeA nodeB)))
    (sends : Sends schedule nodeA) (receives : Receives schedule nodeB) (lives : Lives schedule nodeB)
    {time : Nat} {sender : Runner σ Msg}
    (found : (schedule.states time).runners.lookup nodeA = some sender) : ∃ later receiver, time ≤ later ∧
      (schedule.states later).runners.lookup nodeB = some receiver ∧
      toward protocol nodeB sender.taken <+: acceptedFrom nodeA receiver.handled := by
  have queues (time : Nat) (other : Runner σ Msg)
      (known : (schedule.states time).runners.lookup nodeB = some other) :
      other.accepted = other.handled ++ (inHand other.phase ++ other.receiver) := by
    obtain ⟨_, run, _⟩ := schedule.run time
    obtain ⟨gone, queue, live⟩ := (network_kept spawned run nodeB other known).2.queue
    rwa [live (lives time other known)] at queue
  -- first the sender hands over all of its batch
  obtain ⟨sent, passed, used⟩ := used_up sends time
  obtain ⟨more, rfl⟩ := Nat.exists_eq_add_of_le passed
  obtain ⟨_, further, _⟩ := (schedule.onward time).run more
  obtain ⟨senderLater, foundLater, grows⟩ := grows_run further found
  obtain ⟨events, run, listed⟩ := schedule.run (time + more)
  obtain ⟨_, topology⟩ := topology_run spawned run
  obtain ⟨target, receives'⟩ := Finmap.mem_iff.mp ((topology.nodes nodeB).mpr member)
  have kept : .stroke (.cut nodeA nodeB) ∉ events := by
    intro cut
    obtain ⟨earlier, known⟩ := listed _ cut
    exact uncut earlier known
  obtain ⟨whole, _⟩ := link_whole spawned run different kept foundLater receives' (lives _ target receives')
  rw [Link.Whole, linkOf, used senderLater foundLater] at whole
  have handed : toward protocol nodeB sender.taken <+: acceptedFrom nodeA target.accepted := by
    have taken := grows.taken.filter fun message => decide (protocol.getReceiver message = nodeB)
    rw [← List.append_nil (acceptedFrom nodeA target.accepted)]
    exact whole ▸ taken
  -- and then the receiver handles all that its channel has taken in by then
  obtain ⟨later, receiver, after, final, all⟩ := caught_up receives lives receives' queues
  exact ⟨later, receiver, Nat.le_trans passed after, final, handed.trans (acceptedFrom_grows nodeA all)⟩

end Arrival

/-- Node 1 sends its message to node 2, which handles it. Nothing more happens, as nothing is
left to be sent or received. -/
theorem messages_arrive_greeting : ∃ schedule : Schedule (@Network.Moves _ _ ⟨true⟩ (greetings none 1)),
    ∃ later receiver, spawnNodes (greetings none 1) [1, 2] = some (schedule.states 0) ∧
    (schedule.states later).runners.lookup 2 = some receiver ∧ [2] <+: acceptedFrom 1 receiver.handled := by
  let : BuildProfile := ⟨true⟩
  obtain ⟨start, network, sender, receiver, spawned, run, foundA, sent, taken, foundB,
      _, checking, empty⟩ :=
    greetings_exchange
  obtain ⟨schedule, listed, runs⟩ := Schedule.of_run run
  have ends (time : Nat) (passed : 13 ≤ time) : schedule.states time = network := by
    have rest := (runs time).2
    rw [List.drop_of_length_le passed] at rest
    exact rest.nil_eq
  have starts : schedule.states 0 = start := (runs 0).1.nil_eq.symm
  have sends : Sends schedule 1 := by
    intro time runner found left
    rcases Nat.lt_or_ge time 8 with before | after
    · exact ⟨7, _, Nat.le_of_lt_succ before, listed 7, rfl⟩
    · -- from then on only node 2 moves
      have others : ∀ event ∈
          (greeting ++ [Network.Event.runner 2 .receive, .runner 2 .count, .runner 2 .handle]).drop time,
          event.mover ≠ some 1 := by
        intro event member
        have member := List.drop_subset_drop_left _ after member
        simp only [greeting, List.cons_append, List.nil_append, List.drop_succ_cons,
          List.drop_zero, List.mem_cons,
          List.not_mem_nil, or_false] at member
        rcases member with rfl | rfl | rfl | rfl | rfl <;> decide
      have same := phase_kept_run (runs time).2 found others foundA
      rw [← same, sent] at left
      exact absurd rfl left
  have receives : Receives schedule 2 := by
    intro time runner found left
    rcases Nat.lt_or_ge time 13 with before | passed
    · exact ⟨12, Nat.le_of_lt_succ before, listed 12⟩
    · rw [ends time passed, foundB] at found
      cases found
      rw [checking, empty] at left
      exact absurd rfl left
  have lives : Lives schedule 2 := by
    intro time runner found
    exact live_run (runs time).2 found foundB (by rw [checking]; rfl)
  have uncut (time : Nat) : schedule.events time ≠ some (.stroke (.cut 1 2)) := by
    intro cut
    rw [listed] at cut
    have member := List.mem_of_getElem? cut
    simp [greeting] at member
  have final : (schedule.states 13).runners.lookup 1 = some sender :=
    (ends 13 (Nat.le_refl 13)).symm ▸ foundA
  obtain ⟨later, last, _, found, arrived⟩ :=
    messages_arrive (starts.symm ▸ spawned) (by decide) (by decide) uncut sends receives lives final
  refine ⟨schedule, later, last, starts.symm ▸ spawned, found, ?_⟩
  rw [taken] at arrived
  exact arrived

end OmniSpacetimeDb.Proofs.NetworkLiveness
