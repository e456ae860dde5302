import OmniSpacetimeDb.Proofs.ServiceTasks

/-! Standstills of the whole program. Runners wait for room in each other's channels,
and calls wait for open transactions; where the clients of these wait for the mutex
that such a call has, nothing gets them going again. -/

namespace OmniSpacetimeDb.Proofs.ServiceStalls
open Foundations Datastore Durability Cluster NetworkTraffic NetworkDelivery NetworkTopology NetworkStalls
open Serializability ServiceNetwork ServiceTasks
variable {σ Msg : Type}

/-- The steps of the runners, and of the calls that wait for a store. -/
def underway : Service.Event → Bool
  | .client _ .resume => true
  | event => (taskOf event).isSome

/-- No runner and no waiting call can go on: what is not gone is barred, and each waiting
call kept out. -/
structure Standstill (protocol : Protocol σ Msg) (service : Service σ Msg) : Prop where
  runners : ∀ nodeId runner, service.network.runners.lookup nodeId = some runner →
    runner.phase.closed = false →
    Barred protocol service nodeId runner
  calls : ∀ nodeId runner request, service.network.runners.lookup nodeId = some runner →
    service.waiting nodeId = some request → (service.server protocol nodeId runner).Blocked request

/-- A runner among nodes that keep each other from going on: a waiting call has the
mutex of its node for good, or one of these nodes does not empty its channel. -/
inductive Stuck (protocol : Protocol σ Msg) (service : Service σ Msg) (nodes : NodeId → Prop)
    (nodeId : NodeId) (runner : Runner σ Msg) : Prop
  | locked (found : service.network.runners.lookup nodeId = some runner)
      (stands : atMutex runner.phase = true)
      (cycle : (service.server protocol nodeId runner).Cycle)
  | heldUp {channel : NodeId} {target : Runner σ Msg} (inside : nodes channel)
      (held : HeldUp service.network nodeId channel runner target)

def Jammed (protocol : Protocol σ Msg) (service : Service σ Msg) (nodes : NodeId → Prop) : Prop :=
  ∀ nodeId, nodes nodeId → ∃ runner, Stuck protocol service nodes nodeId runner

section Steps
variable [BuildProfile] {protocol : Protocol σ Msg} {service after : Service σ Msg} {event : Service.Event}
  {nodeId : NodeId} {runner : Runner σ Msg}

/-- A runner that cannot get the mutex of its node stays where it is. -/
theorem locked_step (found : service.network.runners.lookup nodeId = some runner)
    (stands : atMutex runner.phase = true) (cycle : (service.server protocol nodeId runner).Cycle)
    (moves : Service.Moves protocol service event after) :
    ∃ later, after.network.runners.lookup nodeId = some later ∧ Stalled runner later ∧
      (after.server protocol nodeId later).Cycle := by
  obtain ⟨request, client, waits, heldUp, finishing⟩ := cycle
  rcases waiting_step found waits moves with on | ⟨_, granted⟩
  · obtain ⟨later, final, unmoved⟩ := on.unmoved
    have alive : runner.phase ≠ .panicked := by
      intro phase
      rw [phase] at stands
      cases stands
    have same : (after.server protocol nodeId later).clients client =
        (service.server protocol nodeId runner).clients client := on.clients alive client finishing
    have locks : (after.server protocol nodeId later).locks request =
        (service.server protocol nodeId runner).locks request := by
      rw [Service.server, unmoved.node, unmoved.omniDurability]
      cases request <;> rfl
    obtain ⟨held, mode, holds, taken, excluded⟩ := heldUp
    refine ⟨later, final, unmoved.stalled stands, request, client, on.waits,
      ⟨held, mode, ?_, ?_, excluded⟩, ?_⟩
    · rw [same, holds]
    · rw [locks]
      exact taken
    · rw [same, finishing]
  · exact absurd ⟨client, heldUp⟩ granted

section Jams
variable {nodes : NodeId → Prop} {sessions : NodeId → Session}

omit [BuildProfile] in
theorem Stuck.found (stuck : Stuck protocol service nodes nodeId runner) :
    service.network.runners.lookup nodeId = some runner := by
  cases stuck with
  | locked found => exact found
  | heldUp _ held => exact held.found

theorem stuck_stalls (serials : Serials protocol sessions service)
    (stuck : Stuck protocol service nodes nodeId runner)
    (moves : Service.Moves protocol service event after) :
    ∃ later, after.network.runners.lookup nodeId = some later ∧ Stalled runner later := by
  cases stuck with
  | locked found stands cycle =>
    obtain ⟨later, final, stalled, _⟩ := locked_step found stands cycle moves
    exact ⟨later, final, stalled⟩
  | heldUp _ held =>
    rcases refines_step serials moves with ⟨same, _⟩ | ⟨step, moved, _⟩
    · exact ⟨runner, same ▸ held.found, .refl runner⟩
    · exact stalled_moves held moved

theorem jammed_step (serials : Serials protocol sessions service) (jammed : Jammed protocol service nodes)
    (moves : Service.Moves protocol service event after) : Jammed protocol after nodes := by
  intro nodeId member
  obtain ⟨runner, stuck⟩ := jammed nodeId member
  cases stuck with
  | locked found stands cycle =>
    obtain ⟨later, final, stalled, closed⟩ := locked_step found stands cycle moves
    exact ⟨later, .locked final (stalled.phase ▸ stands) closed⟩
  | @heldUp channel target inside held =>
    obtain ⟨message, outMessages, awaits⟩ := held.awaits
    obtain ⟨other, full⟩ := jammed channel inside
    obtain rfl := Option.some.inj (held.receives.symm.trans full.found)
    obtain ⟨later, final, stalled⟩ := stuck_stalls serials (.heldUp inside held) moves
    obtain ⟨last, filled, whole⟩ := stuck_stalls serials full moves
    refine ⟨later,
      .heldUp inside ⟨final, ⟨message, outMessages, stalled.phase.trans awaits⟩, filled, ?_, ?_⟩⟩
    · rw [whole.phase, held.live]
    · exact Nat.le_trans held.full whole.receiver.length_le

theorem jammed_run {events : List Service.Event} (serials : Serials protocol sessions service)
    (jammed : Jammed protocol service nodes) (run : Run (Service.Moves protocol) service events after) :
    Jammed protocol after nodes ∧ ∀ nodeId, nodes nodeId → ∃ runner last,
      service.network.runners.lookup nodeId = some runner ∧
      after.network.runners.lookup nodeId = some last ∧ Stalled runner last := by
  induction run with
  | nil =>
    refine ⟨jammed, ?_⟩
    intro nodeId member
    obtain ⟨runner, stuck⟩ := jammed nodeId member
    exact ⟨runner, runner, stuck.found, stuck.found, .refl runner⟩
  | snoc before moves ih =>
    obtain ⟨jams, each⟩ := ih
    have later := (refines_on serials before).1
    refine ⟨jammed_step later jams moves, ?_⟩
    intro nodeId member
    obtain ⟨runner, middle, known, between, first⟩ := each nodeId member
    obtain ⟨other, stuck⟩ := jams nodeId member
    obtain rfl := Option.some.inj (between.symm.trans stuck.found)
    obtain ⟨last, final, second⟩ := stuck_stalls later stuck moves
    exact ⟨runner, last, known, final, first.trans second⟩

end Jams

theorem halted_iff {servers : List NodeId}
    (nodes : ∀ nodeId ∈ servers, nodeId ∈ service.network.runners)
    (addressed : ∀ nodeId runner, service.network.runners.lookup nodeId = some runner →
      Addressed protocol servers runner)
    (stand : CallsStand service) :
    (∀ event after, underway event = true → ¬ Service.Moves protocol service event after) ↔
      Standstill protocol service := by
  constructor
  · intro halted
    have idle {nodeId : NodeId} (event : Service.Event) (after : Service σ Msg)
        (task : taskOf event = some nodeId) :
        ¬ Service.Moves protocol service event after := by
      refine halted event after ?_
      cases event with
      | network | wait =>
        have some : (taskOf _).isSome = true := Option.isSome_iff_exists.mpr ⟨nodeId, task⟩
        exact some
      | client | abandon | commit | refuse => cases task
    constructor
    · intro nodeId runner found live
      exact (barred_iff nodes (addressed nodeId runner found) stand found live).mp idle
    · intro nodeId runner request found waits
      by_contra granted
      cases owner : request.ofClient with
      | true =>
        obtain ⟨after, moves⟩ := call_proceeds found waits owner granted
        exact halted _ after rfl moves
      | false =>
        obtain ⟨event, after, task, moves⟩ := poll_proceeds stand found waits owner granted
        exact idle event after task moves
  · intro still event after task moves
    have tasks (some : (taskOf event).isSome = true) : False := by
      obtain ⟨nodeId, task⟩ := Option.isSome_iff_exists.mp some
      obtain ⟨step, network, moved, taken⟩ := task_moves moves task
      obtain ⟨runner, found, live, _⟩ := acts taken moved
      exact barred_halts found (still.runners nodeId runner found live) task moves
    cases moves with
    | network | polled | waits => exact tasks task
    | abandoned | committed | refused => cases task
    | client found _ _ moves =>
      cases moves with
      | resumed waits granted => exact granted (still.calls _ _ _ found waits)
      | observe | served | waits | read | used | finishRead | finishWrite | dropped | released
      | committed | refused =>
        cases task

end Steps

section Runs
variable [BuildProfile] {protocol : Protocol σ Msg} {servers : List NodeId} {start : Network σ Msg}
  {service : Service σ Msg} {events : List Service.Event}

omit [BuildProfile] in
/-- With no client left but those that wait to hand their transactions in, every node that is
not gone is stuck. -/
theorem jammed_of_standstill (stand : CallsStand service) (still : Standstill protocol service)
    (finishing : ∀ nodeId client, (service.clients nodeId client).holds ≠ none →
      (service.clients nodeId client).finishing = true) :
    Jammed protocol service (Live service.network) := by
  have locked {nodeId : NodeId} {runner : Runner σ Msg} {request : Request}
      (found : service.network.runners.lookup nodeId = some runner)
      (waits : service.waiting nodeId = some request)
      (stands : atMutex runner.phase = true) :
      Stuck protocol service (Live service.network) nodeId runner := by
    obtain ⟨client, heldUp⟩ := still.calls nodeId runner request found waits
    have holds : (service.clients nodeId client).holds ≠ none := by
      obtain ⟨held, _, holds, _⟩ := heldUp
      exact fun none => by cases none.symm.trans holds
    exact .locked found stands ⟨request, client, waits, heldUp, finishing nodeId client holds⟩
  rintro nodeId ⟨runner, found, live⟩
  refine ⟨runner, ?_⟩
  cases still.runners nodeId runner found live with
  | mutex waits _ stands => exact locked found waits stands
  | store waits own =>
    obtain ⟨other, known, call⟩ := stand nodeId _ waits
    obtain rfl := Option.some.inj (found.symm.trans known)
    exact locked found waits (atCall_stands own call)
  | room held => exact .heldUp ⟨_, held.receives, held.live⟩ held

/-- As long as no call waits for a store, the runners stand still exactly when all
that are not gone hold each other up. What hold each other up so never go on,
whatever clients do, calls that wait included, and whichever connections change. -/
theorem gridlock_is_final (spawned : spawnNodes protocol servers = some start)
    (run : Run (Service.Moves protocol) (.new start) events service) :
    ((∀ nodeId, service.waiting nodeId = none) →
      ((∀ event after, underway event = true → ¬ Service.Moves protocol service event after) ↔
        Gridlocked service.network (Live service.network))) ∧
    ∀ nodes, Gridlocked service.network nodes →
      ∀ more later, Run (Service.Moves protocol) service more later →
      Gridlocked later.network nodes ∧
      ∀ nodeId, nodes nodeId → ∃ before after, service.network.runners.lookup nodeId = some before ∧
        later.network.runners.lookup nodeId = some after ∧ Stalled before after := by
  obtain ⟨stand, nodes, addressed⟩ := reached_stands spawned run
  refine ⟨?_, ?_⟩
  · intro free
    rw [halted_iff (fun nodeId => (nodes nodeId).mpr) addressed stand]
    constructor
    · rintro still nodeId ⟨runner, found, live⟩
      cases still.runners nodeId runner found live with
      | mutex waits | store waits => cases (free nodeId).symm.trans waits
      | room held => exact ⟨_, runner, _, ⟨_, held.receives, held.live⟩, held⟩
    · intro gridlocked
      refine ⟨?_, fun nodeId _ _ _ waits => by cases (free nodeId).symm.trans waits⟩
      intro nodeId runner found live
      obtain ⟨channel, other, target, _, held⟩ := gridlocked nodeId ⟨runner, found, live⟩
      obtain rfl := Option.some.inj (found.symm.trans held.found)
      exact .room held
  · intro nodes gridlocked more later further
    obtain ⟨_, steps, followed, _⟩ := refines_on (refines_run spawned run).1 further
    exact gridlocked_run gridlocked followed

/-- The program comes to a standstill only by full channels and by calls that wait for
open transactions. Nodes that keep each other so, where the clients of these
transactions wait to hand them in, never go on: their runners take, receive, handle
and apply nothing more, whatever the other nodes, clients and connections do. -/
theorem jam_is_final (spawned : spawnNodes protocol servers = some start)
    (run : Run (Service.Moves protocol) (.new start) events service) :
    ((∀ event after, underway event = true → ¬ Service.Moves protocol service event after) ↔
      Standstill protocol service) ∧
    (Standstill protocol service →
      (∀ nodeId client, (service.clients nodeId client).holds ≠ none →
        (service.clients nodeId client).finishing = true) →
      Jammed protocol service (Live service.network)) ∧
    ∀ nodes, Jammed protocol service nodes → ∀ more later, Run (Service.Moves protocol) service more later →
      Jammed protocol later nodes ∧
      ∀ nodeId, nodes nodeId → ∃ before after, service.network.runners.lookup nodeId = some before ∧
        later.network.runners.lookup nodeId = some after ∧ Stalled before after := by
  obtain ⟨stand, nodes, addressed⟩ := reached_stands spawned run
  refine ⟨halted_iff (fun nodeId => (nodes nodeId).mpr) addressed stand, jammed_of_standstill stand, ?_⟩
  exact fun nodes jammed more later further => jammed_run (refines_run spawned run).1 jammed further

end Runs

/-- Two nodes that each have one message more for the other than a channel holds. -/
theorem gridlock_is_final_two_nodes : ∃ start events service,
    spawnNodes (greetings none (msgBufferSize + 1)) [1, 2] = some start ∧
    Run (@Service.Moves _ _ ⟨true⟩ (greetings none (msgBufferSize + 1))) (.new start) events service ∧
    (∀ nodeId, service.waiting nodeId = none) ∧ Live service.network 1 ∧
    ∀ event after, underway event = true →
      ¬ @Service.Moves _ _ ⟨true⟩ (greetings none (msgBufferSize + 1)) service event after := by
  let : BuildProfile := ⟨true⟩
  obtain ⟨start, spawned, first, second, _⟩ := greetings_spawn none (msgBufferSize + 1)
  obtain ⟨events, middle, one, run, mine, foundOne, waitsOne, emptyOne, foundTwo⟩ :=
    @greeter_waits _ none (msgBufferSize + 1) _ 1 2 _ _ (by decide) first rfl rfl rfl rfl rfl second rfl rfl
  rw [accept_all] at foundTwo
  obtain ⟨more, network, two, further, others, foundLast, waitsTwo, fullTwo, foundFull⟩ :=
    @greeter_waits _ none (msgBufferSize + 1) _ 2 1 _ _ (by decide) foundTwo rfl rfl rfl rfl rfl foundOne
      (by rw [waitsOne]; rfl) emptyOne
  rw [accept_all] at foundFull
  have tasks : ∀ event ∈ events ++ more, ∃ nodeId, event.mover = some nodeId ∧
      (Service.new start).waiting nodeId = none ∧
      ∀ client, (Service.new start).clients nodeId client = .idle := by
    intro event member
    rcases List.mem_append.mp member with early | late
    · exact ⟨1, mine event early, rfl, fun _ => rfl⟩
    · exact ⟨2, others event late, rfl, fun _ => rfl⟩
  have whole :=
    @lift_run _ _ _ (greetings none (msgBufferSize + 1)) (.new start) _ _ (run.append further) tasks
  have gridlocked : Gridlocked network (Live network) := by
    rintro nodeId ⟨runner, found, live⟩
    obtain ⟨_, topology⟩ := topology_run spawned (run.append further)
    have member := (topology.nodes nodeId).mp (Finmap.mem_of_lookup_eq_some found)
    have either : nodeId = 1 ∨ nodeId = 2 := by simpa using member
    rcases either with rfl | rfl
    · refine ⟨2, _, two, ⟨two, foundLast, by rw [waitsTwo]; rfl⟩, foundFull, ⟨2, [], waitsOne⟩, foundLast,
        by rw [waitsTwo]; rfl, ?_⟩
      rw [fullTwo, List.length_append, List.length_replicate]
      exact Nat.le_add_left _ _
    · refine ⟨1, two, _, ⟨_, foundFull, by rw [waitsOne]; rfl⟩, foundLast, ⟨1, [], waitsTwo⟩, foundFull,
        by rw [waitsOne]; rfl, ?_⟩
      rw [List.length_append, List.length_replicate]
      exact Nat.le_add_left _ _
  exact ⟨start, _, _, spawned, whole, fun _ => rfl, ⟨_, foundFull, by rw [waitsOne]; rfl⟩,
    ((gridlock_is_final spawned whole).1 fun _ => rfl).mpr gridlocked⟩

/-- A client of node 2 waits for the transaction of another one, which waits to be
handed in; and node 1 has one message more for node 2 than its channel holds. -/
theorem jam_is_final_two_nodes : ∃ start events service,
    spawnNodes (greetings (some 2) (msgBufferSize + 1)) [1, 2] = some start ∧
    Run (@Service.Moves _ _ ⟨true⟩ (greetings (some 2) (msgBufferSize + 1))) (.new start) events service ∧
    Live service.network 1 ∧ Live service.network 2 ∧ service.waiting 2 = some (.beginMutTx 2) ∧
    (∀ event after, underway event = true →
      ¬ @Service.Moves _ _ ⟨true⟩ (greetings (some 2) (msgBufferSize + 1)) service event after) ∧
    Jammed (greetings (some 2) (msgBufferSize + 1)) service (Live service.network) := by
  let : BuildProfile := ⟨true⟩
  let protocol := greetings (some 2) (msgBufferSize + 1)
  obtain ⟨start, spawned, first, second, _⟩ := greetings_spawn (some 2) (msgBufferSize + 1)
  have begins : Run (Service.Moves protocol) (.new start) ([] ++ [.client 2 (.call (.beginMutTx 1))]) _ :=
    Run.nil.snoc (.client second (by simp [newcomer]) (by exact rfl)
      (.served rfl (by exact rfl) (Watermark.free_of_idle (fun _ => rfl) (.beginMutTx 1)) rfl))
  have waits := begins.snoc (show Service.Moves protocol _ (.client 2 (.call (.beginMutTx 2))) _ from
    .client second (by simp [newcomer]) rfl (.waits rfl rfl ⟨1, .write, .write, rfl, .head _, rfl⟩))
  have finishes := waits.snoc (show Service.Moves protocol _ (.client 2 (.finish 1)) _ from
    .client second (fun locks => by cases locks) rfl (.finishWrite rfl))
  obtain ⟨more, network, one, fills, mine, foundOne, waitsOne, emptyOne, foundTwo⟩ :=
    @greeter_waits _ (some 2) (msgBufferSize + 1) _ 1 2 _ _
      (by decide) first rfl rfl rfl rfl rfl second rfl rfl
  rw [accept_all] at foundTwo
  obtain ⟨service, run, two, knownOne, knownTwo, starting, full, blocked, waiting, finishing⟩ : ∃ service,
      Run (Service.Moves protocol) (.new start) _ service ∧
      ∃ two, service.network.runners.lookup 1 = some one ∧
      service.network.runners.lookup 2 = some two ∧ two.phase = .starting ∧
      msgBufferSize ≤ two.receiver.length ∧
      (service.server protocol 2 two).Blocked (.beginMutTx 2) ∧
      (∀ nodeId, service.waiting nodeId = if nodeId = 2 then some (.beginMutTx 2) else none) ∧
      ∀ nodeId client, (service.clients nodeId client).holds ≠ none →
        (service.clients nodeId client).finishing = true := by
    refine ⟨_,
      finishes.append (lift_run fills fun event member => ⟨1, mine event member, rfl, fun _ => rfl⟩), _,
      foundOne, foundTwo, rfl, ?_,
      ⟨1, .write, .write, rfl, .head _, rfl⟩, ?_, ?_⟩
    · rw [List.length_append, List.length_replicate]
      exact Nat.le_add_left _ _
    · intro nodeId
      by_cases mine : nodeId = 2
      · subst mine
        rfl
      · simp [Service.setClients, Service.setWaiting, Service.new, mine]
    · intro nodeId client holds
      by_cases mine : nodeId = 2
      · subst mine
        by_cases writer : client = 1
        · subst writer
          rfl
        · simp [Service.setClients, Service.setWaiting, Service.server, Service.new,
            Server.setClient, writer,
            Client.holds] at holds
      · simp [Service.setClients, Service.setWaiting, Service.new, mine, Client.holds] at holds
  obtain ⟨standstill, jams, _⟩ := jam_is_final spawned run
  have liveTwo : two.phase.closed = false := by rw [starting]; rfl
  have held : HeldUp service.network 1 2 one two := ⟨knownOne, ⟨2, [], waitsOne⟩, knownTwo, liveTwo, full⟩
  have still : Standstill protocol service := by
    constructor
    · intro nodeId runner found _
      have either : nodeId = 1 ∨ nodeId = 2 := by
        have member := ((reached_stands spawned run).2.1 nodeId).mp (Finmap.mem_of_lookup_eq_some found)
        simpa using member
      rcases either with rfl | rfl
      · cases knownOne.symm.trans found
        exact .room held
      · cases knownTwo.symm.trans found
        exact .mutex (waiting 2) rfl (by rw [starting]; rfl)
    · intro nodeId runner request found waits
      rw [waiting] at waits
      split at waits
      next here =>
        subst here
        cases waits
        cases knownTwo.symm.trans found
        exact blocked
      next => cases waits
  exact ⟨start, _, service, spawned, run, ⟨one, knownOne, by rw [waitsOne]; rfl⟩,
    ⟨two, knownTwo, liveTwo⟩, waiting 2,
    standstill.mpr still, jams still finishing⟩

end OmniSpacetimeDb.Proofs.ServiceStalls
