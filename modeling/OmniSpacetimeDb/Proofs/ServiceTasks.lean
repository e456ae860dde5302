import OmniSpacetimeDb.Proofs.NetworkStalls
import OmniSpacetimeDb.Proofs.ServiceNetwork

/-! The tasks of the runners among locks and channels. A call that waits for the store
of a node has the mutex of the node, and of the steps of its runner only those go on
that need none. -/

namespace OmniSpacetimeDb.Proofs.ServiceTasks
open Foundations Datastore Durability Cluster NetworkTraffic NetworkDelivery NetworkTopology NetworkStalls
open Serializability ServiceNetwork
variable {σ Msg : Type}

/-- The node whose task an event is a step of. -/
def taskOf : Service.Event → Option NodeId
  | .network event => event.mover
  | .wait nodeId _ => some nodeId
  | .client _ _ | .abandon _ _ | .commit _ _ _ | .refuse _ _ => none

/-- What keeps a runner that is not gone from its next step: a client's call has the
mutex of its node and waits for the store, a call of its own does, or it has found no
room in a channel. -/
inductive Barred (protocol : Protocol σ Msg) (service : Service σ Msg) (nodeId : NodeId)
    (runner : Runner σ Msg) : Prop
  | mutex {request : Request} (waits : service.waiting nodeId = some request)
      (foreign : request.ofClient = true) (stands : atMutex runner.phase = true)
  | store {request : Request} (waits : service.waiting nodeId = some request)
      (own : request.ofClient = false)
      (blocked : (service.server protocol nodeId runner).Blocked request)
  | room {channel : NodeId} {target : Runner σ Msg}
      (held : HeldUp service.network nodeId channel runner target)

/-- A call of the runner that waits is the one that it is at. -/
def AtCall : Request → Phase Msg → Prop
  | .updateLeader, phase => phase = .polling
  | .applyReplicatedTxns, phase => phase = .updated
  | .beginTx _ _, _ | .beginMutTx _, _ => True

/-- Every call that waits is one of a client, or the one that the runner is at. -/
def CallsStand (service : Service σ Msg) : Prop :=
  ∀ nodeId request, service.waiting nodeId = some request →
    ∃ runner, service.network.runners.lookup nodeId = some runner ∧ AtCall request runner.phase

/-- What stays of a runner while the mutex of its node is taken. -/
structure Unmoved (before after : Runner σ Msg) : Prop where
  node : after.node = before.node
  omniDurability : after.omniDurability = before.omniDurability
  stalled : atMutex before.phase = true → Stalled before after

theorem Unmoved.refl (runner : Runner σ Msg) : Unmoved runner runner := ⟨rfl, rfl, fun _ => .refl runner⟩

theorem Unmoved.trans {before middle after : Runner σ Msg} (first : Unmoved before middle)
    (second : Unmoved middle after) : Unmoved before after where
  node := second.node.trans first.node
  omniDurability := second.omniDurability.trans first.omniDurability
  stalled stands := by
    have still := first.stalled stands
    exact still.trans (second.stalled (still.phase ▸ stands))

section Network
variable [BuildProfile] {protocol : Protocol σ Msg} {network after : Network σ Msg} {event : Network.Event}
  {nodeId : NodeId} {runner changed : Runner σ Msg}

theorem unmoved_changes (unlocked : event.locks ≠ some nodeId)
    (changes : Changes protocol event nodeId runner changed) : Unmoved runner changed := by
  have elsewhere {changed : Runner σ Msg} (outside : atMutex runner.phase = false)
      (node : changed.node = runner.node)
      (omniDurability : changed.omniDurability = runner.omniDurability) : Unmoved runner changed :=
    ⟨node, omniDurability, fun stands => by cases stands.symm.trans outside⟩
  cases changes with
  | @task _ action _ _ step =>
    cases step with
    | stop | commit | start | check | look | skip | leave => exact absurd rfl unlocked
    | tickInterval phase | msgHandlingInterval phase | receive phase | finish phase =>
      exact elsewhere (by rw [phase]; rfl) rfl rfl
    | called called | panicked called =>
      cases action with
      | tick | updateLeader | applyReplicatedTxns | take | count | handle => exact absurd rfl unlocked
      | stop | commit | start | check | tickInterval | msgHandlingInterval | look | finish | receive
      | leave => cases called
  | sent awaits => exact elsewhere (by rw [awaits]; rfl) rfl rfl
  | accepted => exact ⟨rfl, rfl, fun _ => accept_stalls runner _⟩
  | stroke => exact absurd rfl unlocked

theorem unmoved_moves (unlocked : event.locks ≠ some nodeId)
    (found : network.runners.lookup nodeId = some runner)
    (moves : Network.Moves protocol network event after) :
    ∃ later, after.runners.lookup nodeId = some later ∧ Unmoved runner later := by
  obtain ⟨later, final⟩ :=
    Finmap.mem_iff.mp ((moves_nodes moves nodeId).mpr (Finmap.mem_of_lookup_eq_some found))
  refine ⟨later, final, ?_⟩
  refine moves_keep (fun other changed => other = nodeId → Unmoved runner changed) ?_ ?_ moves
    nodeId later final rfl
  · intro other changed known same
    subst same
    obtain rfl := Option.some.inj (found.symm.trans known)
    exact .refl runner
  · intro other changed last valid changes same
    subst same
    exact (valid rfl).trans (unmoved_changes unlocked changes)

end Network

/-- The call goes on waiting, and a client that hands its transaction in goes on wanting to. -/
structure WaitsOn (service after : Service σ Msg) (nodeId : NodeId) (request : Request)
    (runner : Runner σ Msg) : Prop where
  waits : after.waiting nodeId = some request
  unmoved : ∃ later, after.network.runners.lookup nodeId = some later ∧ Unmoved runner later
  clients : runner.phase ≠ .panicked → ∀ client, (service.clients nodeId client).finishing = true →
    after.clients nodeId client = service.clients nodeId client

section Steps
variable [BuildProfile] {protocol : Protocol σ Msg} {service after : Service σ Msg} {event : Service.Event}
  {nodeId : NodeId} {request : Request} {runner : Runner σ Msg}

/-- While a call waits, clients only go on with the transactions they have. -/
theorem waiting_client {server last : Server} {event : Server.Event} (own : server.ofClient event = true)
    (waits : server.waiting = some request) (moves : Server.Moves server event last) :
    last.waiting = some request ∧
      (∀ client, (server.clients client).finishing = true → last.clients client = server.clients client) ∨
    last.waiting = none ∧ ¬ server.Blocked request := by
  have goes {client : ClientId} {state next : Client} (inside : server.clients client = state)
      (working : state.finishing = false) : (server.setClient client next).waiting = some request ∧
        ∀ other, (server.clients other).finishing = true →
          (server.setClient client next).clients other = server.clients other := by
    refine ⟨waits, ?_⟩
    intro other finishing
    rw [clients_setClient]
    refine if_neg ?_
    rintro rfl
    rw [inside, working] at finishing
    cases finishing
  cases moves with
  | observe => cases own
  | served free | waits free | released free | committed free | refused free => cases waits.symm.trans free
  | resumed other granted =>
    cases waits.symm.trans other
    exact .inr ⟨rfl, granted⟩
  | read => exact .inl ⟨waits, fun _ _ => rfl⟩
  | used inside | finishRead inside | finishWrite inside => exact .inl (goes inside rfl)
  | dropped _ unfinished => exact .inl (goes rfl unfinished)

/-- A waiting call goes on waiting until it gets the lock. -/
theorem waiting_step (found : service.network.runners.lookup nodeId = some runner)
    (waits : service.waiting nodeId = some request) (moves : Service.Moves protocol service event after) :
    WaitsOn service after nodeId request runner ∨
      after.waiting nodeId = none ∧ ¬ (service.server protocol nodeId runner).Blocked request := by
  have apart {other : NodeId} (free : service.waiting other = none) : nodeId ≠ other := by
    rintro rfl
    cases waits.symm.trans free
  cases moves with
  | @network event _ _ free _ moves =>
    have unlocked : event.locks ≠ some nodeId := fun locks => apart (free nodeId locks) rfl
    exact .inl ⟨waits, unmoved_moves unlocked found moves, fun _ _ _ => rfl⟩
  | @polled other _ _ before changed _ turn known granted =>
    by_cases mine : nodeId = other
    · subst mine
      obtain rfl := Option.some.inj (found.symm.trans known)
      rcases turn with free | same
      · exact absurd rfl (apart free)
      · cases waits.symm.trans same
        exact .inr ⟨Function.update_self _ _ _, granted⟩
    · exact .inl ⟨(Function.update_of_ne mine _ _).trans waits,
        ⟨runner, set_elsewhere changed mine found, .refl runner⟩, fun _ _ _ => rfl⟩
  | @waits other _ _ _ _ _ free =>
    exact .inl ⟨(Function.update_of_ne (apart free) _ _).trans waits,
      ⟨runner, found, .refl runner⟩, fun _ _ _ => rfl⟩
  | @client other _ _ last known _ own moves =>
    by_cases mine : nodeId = other
    · subst mine
      obtain rfl := Option.some.inj (found.symm.trans known)
      rcases waiting_client own waits moves with ⟨goes, kept⟩ | ⟨done, granted⟩
      · refine .inl ⟨(Function.update_self _ _ _).trans goes, ⟨runner, found, .refl runner⟩, ?_⟩
        intro _ client finishing
        have same :
            ((service.setWaiting nodeId last.waiting).setClients nodeId last.clients).clients nodeId =
            last.clients := Function.update_self _ _ _
        rw [same]
        exact kept client finishing
      · exact .inr ⟨(Function.update_self _ _ _).trans done, granted⟩
    · refine .inl ⟨(Function.update_of_ne mine _ _).trans waits, ⟨runner, found, .refl runner⟩, ?_⟩
      intro _ client _
      exact congrFun (Function.update_of_ne mine _ _) client
  | @abandoned other client poisoned _ known phase =>
    refine .inl ⟨waits, ⟨runner, found, .refl runner⟩, ?_⟩
    intro alive last _
    have mine : nodeId ≠ other := by
      rintro rfl
      obtain rfl := Option.some.inj (found.symm.trans known)
      exact alive phase
    exact congrFun (Function.update_of_ne mine _ _) last
  | @committed other _ _ _ _ _ _ _ free =>
    have mine := apart free
    exact .inl ⟨waits, ⟨runner, set_elsewhere _ mine found, .refl runner⟩,
      fun _ client _ => congrFun (Function.update_of_ne mine _ _) client⟩
  | @refused other _ _ _ _ _ free =>
    have mine := apart free
    exact .inl ⟨waits, ⟨runner, found, .refl runner⟩,
      fun _ client _ => congrFun (Function.update_of_ne mine _ _) client⟩

omit [BuildProfile] in
theorem atCall_client (foreign : request.ofClient = true) (phase : Phase Msg) : AtCall request phase := by
  cases request with
  | beginTx | beginMutTx => trivial
  | updateLeader | applyReplicatedTxns => cases foreign

omit [BuildProfile] in
theorem atCall_stands (own : request.ofClient = false) (stands : AtCall request runner.phase) :
    atMutex runner.phase = true := by
  cases request with
  | beginTx | beginMutTx => cases own
  | updateLeader | applyReplicatedTxns =>
    have phase : runner.phase = _ := stands
    rw [phase]
    rfl

omit [BuildProfile] in
theorem atCall_unmoved {later : Runner σ Msg} (stands : AtCall request runner.phase)
    (unmoved : Unmoved runner later) : AtCall request later.phase := by
  cases foreign : request.ofClient with
  | true => exact atCall_client foreign _
  | false =>
    rw [(unmoved.stalled (atCall_stands foreign stands)).phase]
    exact stands

theorem atCall_due {action : RunnerAction} {result : Panics (Runner σ Msg)}
    (asks : action.request = some request) (due : runner.call protocol action = some result) :
    AtCall request runner.phase := by
  rcases request_serves asks with ⟨rfl, rfl⟩ | ⟨rfl, rfl⟩ <;>
    cases phase : runner.phase <;> simp only [Runner.call, phase] at due <;> first | rfl | cases due

/-- A client that begins to wait does so for a transaction of its own. -/
theorem client_waits {server last : Server} {event : Server.Event} (own : server.ofClient event = true)
    (free : server.waiting = none) (moves : Server.Moves server event last)
    (waits : last.waiting = some request) :
    request.ofClient = true := by
  cases moves with
  | observe | committed | refused => cases own
  | served _ _ _ returned => cases waits.symm.trans ((LockCycle.serve_waiting returned).trans free)
  | waits =>
    cases waits
    exact own
  | resumed => cases waits
  | read | used | finishRead | finishWrite | dropped | released => cases waits.symm.trans free

theorem callsStand_step (stand : CallsStand service) (moves : Service.Moves protocol service event after) :
    CallsStand after := by
  intro nodeId request waits
  cases before : service.waiting nodeId with
  | some other =>
    obtain ⟨runner, found, stands⟩ := stand nodeId other before
    rcases waiting_step found before moves with on | ⟨done, _⟩
    · obtain rfl := Option.some.inj (waits.symm.trans on.waits)
      obtain ⟨later, final, unmoved⟩ := on.unmoved
      exact ⟨later, final, atCall_unmoved stands unmoved⟩
    · cases waits.symm.trans done
  | none =>
    have none_elsewhere {other : NodeId} {waiting : Option Request} (different : nodeId ≠ other)
        (waits : Function.update service.waiting other waiting nodeId = some request) : False := by
      rw [Function.update_of_ne different, before] at waits
      cases waits
    cases moves with
    | network | abandoned | committed | refused => cases before.symm.trans waits
    | @polled other =>
      by_cases mine : nodeId = other
      · subst mine
        cases (Function.update_self _ _ _).symm.trans waits
      · exact (none_elsewhere mine waits).elim
    | @waits other _ _ runner _ asks _ found due =>
      by_cases mine : nodeId = other
      · subst mine
        cases (Function.update_self _ _ _).symm.trans waits
        exact ⟨runner, found, atCall_due asks due⟩
      · exact (none_elsewhere mine waits).elim
    | @client other _ runner _ found _ own moves =>
      by_cases mine : nodeId = other
      · subst mine
        have begins := client_waits own before moves
          ((Function.update_self nodeId _ service.waiting).symm.trans waits)
        exact ⟨runner, found, atCall_client begins _⟩
      · exact (none_elsewhere mine waits).elim

omit [BuildProfile] in
theorem poll_own {action : RunnerAction} (asks : action.request = some request) :
    request.ofClient = false ∧ Network.Event.mover (.runner nodeId action) = some nodeId := by
  rcases request_serves asks with ⟨rfl, rfl⟩ | ⟨rfl, rfl⟩ <;> exact ⟨rfl, rfl⟩

omit [BuildProfile] in
theorem locks_own {event : Network.Event} {other : NodeId} (task : event.mover = some nodeId)
    (locks : event.locks = some other) : other = nodeId := by
  cases event with
  | runner node action => cases action <;> cases task <;> cases locks <;> rfl
  | deliver | deleteConnections | reconnectNodes => cases locks
  | stroke => cases task

/-- A step of a task is one that the network has, or a poll that begins to wait and is due there. -/
theorem task_moves (moves : Service.Moves protocol service event after)
    (task : taskOf event = some nodeId) :
    ∃ step network, step.mover = some nodeId ∧ Network.Moves protocol service.network step network := by
  cases moves with
  | network _ _ _ moves => exact ⟨_, _, task, moves⟩
  | polled asks _ found _ step => exact ⟨_, _, task, .runner found step⟩
  | waits asks _ found due =>
    cases task
    obtain ⟨changed, step⟩ := call_moves due
    exact ⟨_, _, (poll_own asks).2, .runner found step⟩
  | client | abandoned | committed | refused => cases task

theorem barred_halts (found : service.network.runners.lookup nodeId = some runner)
    (barred : Barred protocol service nodeId runner) (task : taskOf event = some nodeId) :
    ¬ Service.Moves protocol service event after := by
  intro moves
  cases barred with
  | room held =>
    obtain ⟨step, network, moved, moves⟩ := task_moves moves task
    exact heldUp_halts held moved moves
  | mutex taken foreign stands =>
    cases moves with
    | network _ free _ moves =>
      obtain ⟨other, known, _, acting⟩ := acts moves task
      obtain rfl := Option.some.inj (found.symm.trans known)
      rcases acting with ⟨_, locks⟩ | ⟨phase | phase, _⟩ | ⟨⟨_, _, _, phase⟩, _⟩
      · cases taken.symm.trans (free nodeId locks)
      all_goals
        rw [phase] at stands
        cases stands
    | polled asks turn =>
      obtain ⟨own, moved⟩ := poll_own asks
      obtain rfl := Option.some.inj (moved.symm.trans task)
      rcases turn with free | same
      · cases taken.symm.trans free
      · cases taken.symm.trans same
        cases own.symm.trans foreign
    | waits _ free =>
      cases task
      cases taken.symm.trans free
    | client | abandoned | committed | refused => cases task
  | store taken own blocked =>
    cases moves with
    | network _ _ awake => cases own.symm.trans (awake nodeId _ task taken)
    | polled asks turn known granted =>
      obtain rfl := Option.some.inj ((poll_own asks).2.symm.trans task)
      obtain rfl := Option.some.inj (found.symm.trans known)
      rcases turn with free | same
      · cases taken.symm.trans free
      · cases taken.symm.trans same
        exact granted blocked
    | waits _ free =>
      cases task
      cases taken.symm.trans free
    | client | abandoned | committed | refused => cases task

/-- A step of the network that its runner can take, it can take here if no call waits that
keeps it from it. -/
theorem task_proceeds {event : Network.Event} {network : Network σ Msg} (task : event.mover = some nodeId)
    (free : ∀ other, event.locks = some other → service.waiting other = none)
    (awake : ∀ request, service.waiting nodeId = some request → request.ofClient = true)
    (moves : Network.Moves protocol service.network event network) :
    ∃ event after, taskOf event = some nodeId ∧ Service.Moves protocol service event after := by
  have polls {other : NodeId} {action : RunnerAction} {request : Request} {runner changed : Runner σ Msg}
      (asks : action.request = some request)
      (moved : Network.Event.mover (.runner other action) = some nodeId)
      (unlocked : service.waiting other = none) (found : service.network.runners.lookup other = some runner)
      (step : RunnerStep protocol runner action changed) :
      ∃ event after, taskOf event = some nodeId ∧ Service.Moves protocol service event after := by
    have due : ∃ result, runner.call protocol action = some result := by
      rcases request_serves asks with ⟨rfl, _⟩ | ⟨rfl, _⟩ <;>
        cases step with
        | called called | panicked called => exact ⟨_, called⟩
    obtain ⟨result, called⟩ := due
    by_cases blocked : (service.server protocol other runner).Blocked request
    · exact ⟨.wait other action, _, (poll_own asks).2.symm.trans moved,
        .waits asks unlocked found called blocked⟩
    · exact ⟨.network (.runner other action), _, moved, .polled asks (.inl unlocked) found blocked step⟩
  cases uses : event.usesStore with
  | false =>
    refine ⟨.network event, _, task, .network uses free ?_ moves⟩
    intro other request moved waits
    obtain rfl := Option.some.inj (task.symm.trans moved)
    exact awake request waits
  | true =>
    cases moves with
    | @runner other action runner changed found step =>
      cases action with
      | stop | start | check | tickInterval | tick | msgHandlingInterval | take | look | finish | receive
      | count | handle | leave => cases uses
      | commit => cases task
      | updateLeader | applyReplicatedTxns => exact polls rfl task (free other rfl) found step
    | delivered | lost | deleteConnections | reconnectNodes | stroke => cases uses

/-- A poll that waits goes on when nothing blocks it. -/
theorem poll_proceeds (stand : CallsStand service)
    (found : service.network.runners.lookup nodeId = some runner)
    (waits : service.waiting nodeId = some request) (own : request.ofClient = false)
    (granted : ¬ (service.server protocol nodeId runner).Blocked request) :
    ∃ event after, taskOf event = some nodeId ∧ Service.Moves protocol service event after := by
  obtain ⟨other, known, stands⟩ := stand nodeId request waits
  obtain rfl := Option.some.inj (found.symm.trans known)
  have polls {action : RunnerAction} {result : Panics (Runner σ Msg)} (asks : action.request = some request)
      (due : runner.call protocol action = some result) :
      ∃ event after, taskOf event = some nodeId ∧ Service.Moves protocol service event after := by
    obtain ⟨changed, step⟩ := call_moves due
    exact ⟨.network (.runner nodeId action), _, (poll_own asks).2,
      .polled asks (.inr waits) found granted step⟩
  cases request with
  | beginTx | beginMutTx => cases own
  | updateLeader =>
    have phase : runner.phase = .polling := stands
    have due : runner.call protocol .updateLeader = some (runner.updateLeader protocol) := by
      simp only [Runner.call, phase]
    exact polls rfl due
  | applyReplicatedTxns =>
    have phase : runner.phase = .updated := stands
    have due : runner.call protocol .applyReplicatedTxns = some (runner.applyReplicatedTxns protocol) := by
      simp only [Runner.call, phase]
    exact polls rfl due

/-- A client's call that waits goes on when nothing blocks it. -/
theorem call_proceeds (found : service.network.runners.lookup nodeId = some runner)
    (waits : service.waiting nodeId = some request) (foreign : request.ofClient = true)
    (granted : ¬ (service.server protocol nodeId runner).Blocked request) :
    ∃ after, Service.Moves protocol service (.client nodeId .resume) after := by
  have mine : (service.server protocol nodeId runner).ofClient .resume = true := by
    have waiting : (service.server protocol nodeId runner).waiting = some request := waits
    rw [Server.ofClient, waiting]
    exact foreign
  have returns : ∃ last, (service.server protocol nodeId runner).serve request = some last := by
    cases request with
    | beginTx => exact ⟨_, rfl⟩
    | beginMutTx =>
      rw [Server.serve]
      split <;> exact ⟨_, rfl⟩
    | updateLeader | applyReplicatedTxns => cases foreign
  obtain ⟨last, returned⟩ := returns
  exact ⟨_, .client found (fun locks => by cases locks) mine (.resumed waits granted returned)⟩

/-- A runner that is not gone goes on, as long as it is not barred. -/
theorem barred_iff {servers : List NodeId} (nodes : ∀ nodeId ∈ servers, nodeId ∈ service.network.runners)
    (addressed : Addressed protocol servers runner) (stand : CallsStand service)
    (found : service.network.runners.lookup nodeId = some runner) (live : runner.phase.closed = false) :
    (∀ event after, taskOf event = some nodeId → ¬ Service.Moves protocol service event after) ↔
      Barred protocol service nodeId runner := by
  constructor
  · intro halted
    have never : ¬ ∃ event after, taskOf event = some nodeId ∧
        Service.Moves protocol service event after := by
      rintro ⟨event, after, task, moves⟩
      exact halted event after task moves
    -- what waits, and whose call it is
    cases taken : service.waiting nodeId with
    | none =>
      have awake : ∀ request, service.waiting nodeId = some request → request.ofClient = true := by
        intro request waits
        cases taken.symm.trans waits
      have free {event : Network.Event} (task : event.mover = some nodeId) :
          ∀ other, event.locks = some other → service.waiting other = none := by
        intro other locks
        rw [locks_own task locks, taken]
      cases due_of_live nodes addressed found live with
      | locked _ step task => exact absurd (task_proceeds task (free task) awake (.runner found step)) never
      | free _ task _ moves => exact absurd (task_proceeds task (free task) awake moves) never
      | heldUp held => exact .room held
    | some request =>
      cases owner : request.ofClient with
      | false =>
        refine .store taken owner ?_
        by_contra granted
        exact never (poll_proceeds stand found taken owner granted)
      | true =>
        have awake : ∀ other, service.waiting nodeId = some other → other.ofClient = true := by
          intro other waits
          cases taken.symm.trans waits
          exact owner
        cases due_of_live nodes addressed found live with
        | locked stands => exact .mutex taken owner stands
        | free _ task unlocked moves =>
          exact absurd
            (task_proceeds task (fun _ locks => by cases unlocked.symm.trans locks) awake moves) never
        | heldUp held => exact .room held
  · exact fun barred event after task => barred_halts found barred task

/-- What a runner does in the network it does here, while no call of its node waits and no
client is inside. -/
theorem lift_moves {event : Network.Event} {network : Network σ Msg} (task : event.mover = some nodeId)
    (free : service.waiting nodeId = none) (idle : ∀ client, service.clients nodeId client = .idle)
    (moves : Network.Moves protocol service.network event network) :
    Service.Moves protocol service (.network event) { service with network } := by
  have unlocked : ∀ other, event.locks = some other → service.waiting other = none := by
    intro other locks
    rw [locks_own task locks, free]
  have polled {action : RunnerAction} {request : Request} {runner changed : Runner σ Msg}
      (asks : action.request = some request) (found : service.network.runners.lookup nodeId = some runner)
      (step : RunnerStep protocol runner action changed) : Service.Moves protocol service
        (.network (.runner nodeId action))
          { service with network := service.network.set nodeId changed } := by
    have moves := Service.Moves.polled asks (.inl free) found
      (@Watermark.free_of_idle (service.server protocol nodeId runner) idle request) step
    rwa [Service.setWaiting, ← free, Function.update_eq_self] at moves
  cases uses : event.usesStore with
  | false =>
    refine .network uses unlocked ?_ moves
    intro other request moved waits
    obtain rfl := Option.some.inj (task.symm.trans moved)
    cases free.symm.trans waits
  | true =>
    cases moves with
    | @runner other action runner changed found step =>
      cases action with
      | stop | start | check | tickInterval | tick | msgHandlingInterval | take | look | finish | receive
      | count | handle | leave => cases uses
      | commit => cases task
      | updateLeader | applyReplicatedTxns =>
        cases task
        exact polled rfl found step
    | delivered | lost | deleteConnections | reconnectNodes | stroke => cases uses

theorem lift_run {network : Network σ Msg} {events : List Network.Event}
    (run : Run (Network.Moves protocol) service.network events network)
    (tasks : ∀ event ∈ events, ∃ nodeId, event.mover = some nodeId ∧ service.waiting nodeId = none ∧
      ∀ client, service.clients nodeId client = .idle) :
    Run (Service.Moves protocol) service (events.map .network) { service with network } := by
  induction run with
  | nil => exact .nil
  | snoc _ last ih =>
    rw [List.map_append]
    have earlier := ih fun event member => tasks event (List.mem_append_left _ member)
    obtain ⟨nodeId, mine, free, idle⟩ := tasks _ (List.mem_append_right _ List.mem_cons_self)
    exact earlier.snoc (@lift_moves _ _ _ _ { service with network := _ } _ _ _ mine free idle last)

/-- What holds of each state that the program reaches. -/
theorem reached_stands {servers : List NodeId} {start : Network σ Msg} {events : List Service.Event}
    (spawned : spawnNodes protocol servers = some start)
    (run : Run (Service.Moves protocol) (.new start) events service) :
    CallsStand service ∧ (∀ nodeId, nodeId ∈ service.network.runners ↔ nodeId ∈ servers) ∧
    ∀ nodeId runner, service.network.runners.lookup nodeId = some runner →
      Addressed protocol servers runner := by
  obtain ⟨_, steps, followed, _⟩ := refines_run spawned run
  obtain ⟨_, topology⟩ := topology_run spawned followed
  refine ⟨?_, topology.nodes, ?_⟩
  · exact run.invariant CallsStand (fun _ _ waits => by cases waits) fun _ _ _ stand moves =>
      callsStand_step stand moves
  · exact fun nodeId runner found => (network_kept spawned followed nodeId runner found).1

end Steps
end OmniSpacetimeDb.Proofs.ServiceTasks
