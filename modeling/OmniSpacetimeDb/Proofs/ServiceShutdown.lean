import OmniSpacetimeDb.Proofs.NetworkRank
import OmniSpacetimeDb.Proofs.ServiceTasks
import OmniSpacetimeDb.Foundations.Schedule

/-! What is left to a cluster whose nodes have all been stopped: each runner ends its
iteration, however the others and the clients interleave, unless a call that waits for
the store or a full channel keeps it from that. -/

namespace OmniSpacetimeDb.Proofs.ServiceShutdown
open Foundations Datastore Durability Cluster NetworkTraffic NetworkDelivery NetworkStalls
  NetworkNodes NetworkRank
open ServiceNetwork ServiceTasks
variable {σ Msg : Type}

/-- Whether the call that waits is one of the runner. -/
def asleep : Option Request → Bool
  | some request => !request.ofClient
  | none => false

/-- The nodes whose runner may still begin to wait for the store. -/
def awakeNodes (service : Service σ Msg) : Finset NodeId :=
  service.network.runners.keys.filter fun nodeId => asleep (service.waiting nodeId) = false

/-- What all runners have left, and how many of them can begin to wait before that gets less. -/
def remaining (service : Service σ Msg) : (Nat ×ₗ Nat) ×ₗ Nat :=
  toLex (left service.network, (awakeNodes service).card)

section Steps
variable [BuildProfile] {protocol : Protocol σ Msg} {sessions : NodeId → Session}
  {service after : Service σ Msg}
  {event : Service.Event} {nodeId : NodeId}

/-- No client ends the wait of a runner. -/
theorem client_sleeps {server last : Server} {event : Server.Event} (own : server.ofClient event = true)
    (moves : Server.Moves server event last) (sleeps : asleep server.waiting = true) :
    last.waiting = server.waiting := by
  cases moves with
  | observe => cases own
  | served free | waits free | released free | committed free | refused free =>
    rw [free] at sleeps
    cases sleeps
  | @resumed request _ waits =>
    rw [Server.ofClient, waits] at own
    rw [waits, asleep] at sleeps
    have foreign : request.ofClient = true := own
    rw [foreign] at sleeps
    cases sleeps
  | read | used | finishRead | finishWrite | dropped => rfl

omit [BuildProfile] in
theorem waits_sleep {other : NodeId} {request : Request} (own : request.ofClient = false) (nodeId : NodeId)
    (sleeps : nodeId = other ∨ asleep (service.waiting nodeId) = true) :
    asleep ((service.setWaiting other (some request)).waiting nodeId) = true := by
  show asleep (Function.update service.waiting other (some request) nodeId) = true
  rw [Function.update_apply]
  split
  · rw [asleep, own]
    rfl
  next elsewhere => exact sleeps.resolve_left elsewhere

/-- A step after which no runner is awake that was not, or one of a runner that has less to do
then. -/
theorem sleeps_on (stopped : Stopped service.network) (moves : Service.Moves protocol service event after) :
    (∀ nodeId, asleep (service.waiting nodeId) = true → asleep (after.waiting nodeId) = true) ∨
      left after.network < left service.network := by
  cases moves with
  | network | abandoned | committed | refused => exact .inl fun _ => id
  | polled asks _ found _ step => exact .inr (left_falls stopped (.runner found step) (poll_own asks).2)
  | @waits other _ _ _ _ asks =>
    exact .inl fun nodeId sleeps => waits_sleep (@poll_own other _ _ asks).1 nodeId (.inr sleeps)
  | @client other _ _ last found _ own moves =>
    refine .inl ?_
    intro nodeId sleeps
    show asleep (Function.update service.waiting other last.waiting nodeId) = true
    rw [Function.update_apply]
    split
    next here =>
      subst here
      rw [client_sleeps own moves sleeps]
      exact sleeps
    next => exact sleeps

theorem network_lowers (serials : Serials protocol sessions service) (stopped : Stopped service.network)
    (moves : Service.Moves protocol service event after) : Stopped after.network ∧
      left after.network ≤ left service.network ∧
      after.network.runners.keys = service.network.runners.keys := by
  rcases refines_step serials moves with ⟨same, _⟩ | ⟨step, moved, _⟩
  · rw [same]
    exact ⟨stopped, le_refl _, rfl⟩
  · exact ⟨(moves_lower stopped moved).1, left_lowers stopped moved, keys_kept moved⟩

omit [BuildProfile] in
theorem awakeNodes_subset (keys : after.network.runners.keys = service.network.runners.keys)
    (sleeps : ∀ nodeId, asleep (service.waiting nodeId) = true → asleep (after.waiting nodeId) = true) :
    awakeNodes after ⊆ awakeNodes service := by
  intro nodeId awake
  rw [awakeNodes, Finset.mem_filter, keys] at awake
  refine Finset.mem_filter.mpr ⟨awake.1, ?_⟩
  cases before : asleep (service.waiting nodeId) with
  | false => rfl
  | true => cases awake.2.symm.trans (sleeps nodeId before)

theorem remaining_lowers (serials : Serials protocol sessions service) (stopped : Stopped service.network)
    (moves : Service.Moves protocol service event after) : remaining after ≤ remaining service := by
  obtain ⟨_, lower, keys⟩ := network_lowers serials stopped moves
  rcases lt_or_eq_of_le lower with falls | same
  · exact le_of_lt (Prod.Lex.toLex_lt_toLex.mpr (.inl falls))
  · rcases sleeps_on stopped moves with sleeps | falls
    · exact Prod.Lex.toLex_le_toLex.mpr (.inr ⟨same, Finset.card_le_card (awakeNodes_subset keys sleeps)⟩)
    · exact absurd same (ne_of_lt falls)

theorem remaining_falls (stopped : Stopped service.network)
    (moves : Service.Moves protocol service event after) (task : taskOf event = some nodeId) :
    remaining after < remaining service := by
  cases moves with
  | network _ _ _ moves => exact Prod.Lex.toLex_lt_toLex.mpr (.inl (left_falls stopped moves task))
  | polled asks _ found _ step =>
    exact Prod.Lex.toLex_lt_toLex.mpr (.inl (left_falls stopped (.runner found step) (poll_own asks).2))
  | @waits other _ request _ _ asks free found =>
    have sleeps := @waits_sleep _ _ service other request (@poll_own other _ _ asks).1
    have fewer : awakeNodes (service.setWaiting other (some request)) ⊆ awakeNodes service :=
      awakeNodes_subset rfl fun nodeId before => sleeps nodeId (.inr before)
    refine Prod.Lex.toLex_lt_toLex.mpr (.inr ⟨rfl, Finset.card_lt_card ?_⟩)
    refine (Finset.ssubset_iff_of_subset fewer).mpr ⟨other, ?_, ?_⟩
    · exact Finset.mem_filter.mpr
        ⟨Finmap.mem_keys.mpr (Finmap.mem_of_lookup_eq_some found), by rw [free]; rfl⟩
    · intro awake
      cases (sleeps other (.inl rfl)).symm.trans (Finset.mem_filter.mp awake).2
  | client | abandoned | committed | refused => cases task

theorem stopped_run {events : List Service.Event} (serials : Serials protocol sessions service)
    (stopped : Stopped service.network) (run : Run (Service.Moves protocol) service events after) :
    (∃ sessions, Serials protocol sessions after) ∧ Stopped after.network := by
  obtain ⟨later, steps, followed, _⟩ := refines_on serials run
  refine ⟨⟨_, later⟩, ?_⟩
  exact followed.invariant Stopped stopped fun _ _ _ stopped moves => (moves_lower stopped moves).1

end Steps

section Schedules
variable [BuildProfile] {protocol : Protocol σ Msg} {servers : List NodeId} {start : Network σ Msg}
  {service : Service σ Msg} {events : List Service.Event}

/-- Once all nodes have been stopped, their tasks take finitely many steps, whatever
clients do and whichever connections are changed. Where tasks go on as long as they
can, each of them has ended or panicked by then, or is barred: by a call that waits for
the store, of a client that has the mutex of the node or of its own, or by a full channel. -/
theorem stopped_cluster_halts (spawned : spawnNodes protocol servers = some start)
    (run : Run (Service.Moves protocol) (.new start) events service) (stopped : Stopped service.network)
    (schedule : Schedule (Service.Moves protocol)) (begins : schedule.states 0 = service) :
    ∃ time, (∀ later event, time ≤ later → schedule.events later = some event → taskOf event = none) ∧
      (schedule.Obliging (fun event => (taskOf event).isSome) → ∀ later nodeId runner, time ≤ later →
        (schedule.states later).network.runners.lookup nodeId = some runner → runner.phase.closed = false →
        Barred protocol (schedule.states later) nodeId runner) := by
  have reached (time : Nat) : (∃ sessions, Serials protocol sessions (schedule.states time)) ∧
      Stopped (schedule.states time).network := by
    obtain ⟨more, further, _⟩ := schedule.run time
    rw [begins] at further
    exact stopped_run (refines_run spawned run).1 stopped further
  obtain ⟨time, quiet⟩ :=
    @Schedule.settles _ _ _ _ _ remaining _ schedule (fun event => (taskOf event).isSome)
    (fun time _ known => by
      obtain ⟨⟨_, serials⟩, stopped⟩ := reached time
      exact remaining_lowers serials stopped (schedule.moved known))
    (fun time _ known marked => by
      obtain ⟨nodeId, task⟩ := Option.isSome_iff_exists.mp marked
      exact remaining_falls (reached time).2 (schedule.moved known) task)
  refine ⟨time, fun later event passed known => Option.isNone_iff_eq_none.mp ?_, ?_⟩
  · rw [← Option.not_isSome, quiet later event passed known]
    rfl
  · intro obliging later nodeId runner passed found live
    obtain ⟨more, further, _⟩ := schedule.run later
    rw [begins] at further
    obtain ⟨stand, nodes, addressed⟩ := reached_stands spawned (run.append further)
    refine (barred_iff (fun nodeId => (nodes nodeId).mpr)
      (addressed nodeId runner found) stand found live).mp ?_
    intro event after task
    exact obliging.halts quiet later event after passed (by rw [task]; rfl)

end Schedules

/-- Node 1 is stopped with a message to send, and node 2 before its first iteration. Node 1
sends the message still, and both leave. -/
theorem stopped_cluster_halts_two_nodes : ∃ start events service,
    ∃ schedule : Schedule (@Service.Moves _ _ ⟨true⟩ (greetings none 1)), ∃ time,
    spawnNodes (greetings none 1) [1, 2] = some start ∧
    Run (@Service.Moves _ _ ⟨true⟩ (greetings none 1)) (.new start) events service ∧
    Stopped service.network ∧
    schedule.states 0 = service ∧ schedule.events 1 = some (.network (.deliver 1)) ∧
    schedule.events 7 = some (.network (.runner 2 .leave)) ∧
    ∀ later nodeId runner, time ≤ later →
      (schedule.states later).network.runners.lookup nodeId = some runner →
      runner.phase.closed = false → Barred (greetings none 1) (schedule.states later) nodeId runner := by
  let : BuildProfile := ⟨true⟩
  obtain ⟨start, spawned, first, second, others⟩ := greetings_spawn none 1
  obtain ⟨polled, polls, sends, kept⟩ := @greetings_poll _ none 1 _ _ _ first rfl rfl rfl
  have waits := @lift_run _ _ _ (greetings none 1) (.new start) _ _ polls fun event member => by
    simp only [List.mem_cons, List.not_mem_nil, or_false] at member
    refine ⟨1, ?_, rfl, fun _ => rfl⟩
    rcases member with rfl | rfl | rfl | rfl | rfl | rfl <;> rfl
  let sending : Runner (List NodeId) NodeId :=
    { newcomer 1 [2] with omniDurability := [], phase := .sending [2], taken := [2] }
  have stopsFirst := waits.snoc (.network rfl (fun _ _ => rfl) (fun _ _ task => by cases task)
    (@Network.Moves.runner _ _ _ _ _ 1 _ sending _ sends (.stop nofun)))
  have stops := stopsFirst.snoc (.network rfl (fun _ _ => rfl) (fun _ _ task => by cases task)
    (.runner (set_elsewhere _ (by decide) ((kept 2 (by decide)).trans second)) (.stop nofun)))
  -- node 1 hands over its message and leaves, and then node 2 leaves
  have looks : Run (Network.Moves (greetings none 1))
      ((polled.set 1 sending.stop).set 2 (newcomer 2 [1]).stop)
      ([] ++ [.runner 1 .look]) _ :=
        Run.nil.snoc (.runner (set_elsewhere _ (by decide) (set_self polled 1 sending.stop))
    (@RunnerStep.look _ _ _ (greetings none 1) _ 2 [] 2 rfl rfl))
  have delivers := looks.snoc (.delivered (set_self _ _ _) rfl
    (set_elsewhere _ (by decide) (set_elsewhere _ (by decide) (set_self _ _ _))) rfl (by decide))
  have finishes := delivers.snoc (.runner (set_elsewhere _ (by decide) (set_self _ _ _)) (.finish rfl))
  have checks := finishes.snoc (.runner (set_self _ _ _) (.check rfl))
  have leaves := checks.snoc (.runner (set_self _ _ _) (.leave rfl))
  have starts := leaves.snoc (.runner (set_elsewhere _ (by decide) (set_elsewhere _ (by decide)
    (set_elsewhere _ (by decide) (set_self _ _ _)))) (.start rfl))
  have checksLast := starts.snoc (.runner (set_self _ _ _) (.check rfl))
  have ends := checksLast.snoc (.runner (set_self _ _ _) (.leave rfl))
  have member {service : Service (List NodeId) NodeId} {events : List Service.Event} {nodeId : NodeId}
      {runner : Runner (List NodeId) NodeId}
      (run : Run (Service.Moves (greetings none 1)) (.new start) events service)
      (found : service.network.runners.lookup nodeId = some runner) : nodeId = 1 ∨ nodeId = 2 := by
    have member := ((reached_stands spawned run).2.1 nodeId).mp (Finmap.mem_of_lookup_eq_some found)
    simpa using member
  have stopped : Stopped ((polled.set 1 sending.stop).set 2 (newcomer 2 [1]).stop) := by
    intro nodeId runner found
    rcases member stops found with rfl | rfl
    · cases (set_elsewhere _ (by decide) (set_self _ _ _)).symm.trans found
      rfl
    · cases (set_self _ _ _).symm.trans found
      rfl
  have tasks := @lift_run _ _ _ (greetings none 1)
    { Service.new start with network := (polled.set 1 sending.stop).set 2 (newcomer 2 [1]).stop } _ _
      ends fun event member => by
    simp only [List.nil_append, List.cons_append, List.mem_cons, List.not_mem_nil, or_false] at member
    rcases member with rfl | rfl | rfl | rfl | rfl | rfl | rfl | rfl
    case inr.inr.inr.inr.inr.inl | inr.inr.inr.inr.inr.inr.inl | inr.inr.inr.inr.inr.inr.inr =>
      exact ⟨2, rfl, rfl, fun _ => rfl⟩
    all_goals exact ⟨1, rfl, rfl, fun _ => rfl⟩
  obtain ⟨last, tasks, ended⟩ : ∃ last, Run (Service.Moves (greetings none 1)) _ _ last ∧
      ∀ nodeId runner, last.network.runners.lookup nodeId = some runner → runner.phase.closed = true := by
    refine ⟨_, tasks, ?_⟩
    intro nodeId runner found
    rcases member (stops.append tasks) found with rfl | rfl
    · cases (set_elsewhere _ (by decide) (set_elsewhere _ (by decide) (set_elsewhere _ (by decide)
        (set_self _ _ _)))).symm.trans found
      rfl
    · cases (set_self _ _ _).symm.trans found
      rfl
  have halts : ∀ event after, (taskOf event).isSome = true →
      ¬ Service.Moves (greetings none 1) last event after := by
    intro event after some moves
    obtain ⟨nodeId, task⟩ := Option.isSome_iff_exists.mp some
    obtain ⟨step, network, moved, taken⟩ := task_moves moves task
    obtain ⟨runner, found, live, _⟩ := acts taken moved
    cases live.symm.trans (ended nodeId runner found)
  obtain ⟨schedule, begins, listed, obliging, _⟩ :=
    Schedule.obliging_of_run tasks (by simp [taskOf, Network.Event.mover]) halts
  obtain ⟨time, _, barred⟩ := stopped_cluster_halts spawned stops stopped schedule begins
  exact ⟨start, _, _, schedule, time, spawned, stops, stopped, begins, listed 1, listed 7, barred obliging⟩

end OmniSpacetimeDb.Proofs.ServiceShutdown
