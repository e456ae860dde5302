import OmniSpacetimeDb.Proofs.Watermark

/-! The mutex of a node and the lock of its store. A transaction is handed back
under the mutex, so a call that waits for the store while it has the mutex waits
for a client that cannot get it. -/

namespace OmniSpacetimeDb.Proofs.LockCycle
open Foundations Datastore Durability Cluster Store LogIteration Watermark

/-- A call is made only while no open transaction keeps it from the store. -/
def CallFree (server : Server) : Server.Event → Prop
  | .call request => ¬ server.Blocked request
  | _ => True

theorem no_cycle_of_free {server : Server} (free : server.waiting = none) : ¬ server.Cycle := by
  rintro ⟨request, client, waits, _⟩
  rw [free] at waits
  cases waits

section
variable [BuildProfile] {server after : Server} {request : Request}

theorem serve_waiting (returned : server.serve request = some after) : after.waiting = server.waiting := by
  cases request with
  | beginTx client durabilityLevel =>
    cases returned
    rfl
  | beginMutTx client =>
    rw [Server.serve] at returned
    split at returned <;> cases returned <;> rfl
  | updateLeader | applyReplicatedTxns =>
    obtain ⟨result, _, rfl⟩ := Option.map_eq_some_iff.mp returned
    rfl

theorem free_step {event : Server.Event} (free : server.waiting = none)
    (step : Guarded CallFree Server.Moves server event after) :
    after.waiting = none := by
  obtain ⟨allowed, moves⟩ := step
  cases moves with
  | observe | read | used | finishRead | finishWrite | dropped | released | committed
  | refused => exact free
  | served _ _ _ returned => exact (serve_waiting returned).trans free
  | waits _ _ blocked => exact absurd blocked allowed
  | resumed => rfl

/-- The client that holds up a waiting call closes the cycle when it is done with its
transaction, unless it has done so. -/
theorem cycle_of_waiting (waits : server.waiting = some request) {client : ClientId}
    (heldUp : server.HeldUp request client) :
    server.Cycle ∨ ∃ last, Server.Moves server (.finish client) last ∧ last.Cycle := by
  have closes {state : Client} (holds : state.holds = (server.clients client).holds)
      (finishing : state.finishing = true) :
      (server.setClient client state).Cycle := by
    have inside : (server.setClient client state).clients client = state := Function.update_self _ _ _
    obtain ⟨held, mode, open', taken, excluded⟩ := heldUp
    refine ⟨request, client, waits, ⟨held, mode, ?_, taken, excluded⟩, ?_⟩
    · rw [inside, holds, open']
    · rw [inside, finishing]
  cases state : server.clients client with
  | idle =>
    obtain ⟨held, mode, holds, _⟩ := heldUp
    rw [state] at holds
    cases holds
  | reading tx =>
    refine .inr ⟨_, .finishRead state, closes ?_ rfl⟩
    rw [state]
    rfl
  | writing tx =>
    refine .inr ⟨_, .finishWrite state, closes ?_ rfl⟩
    rw [state]
    rfl
  | releasing tx | committing tx =>
    refine .inl ⟨request, client, waits, heldUp, ?_⟩
    rw [state]
    rfl

/-- Runs whose calls are free reach no cycle. From any state of such a run, a call
leads to a cycle, within one move of a client, exactly if it is not free. -/
theorem no_cycle_of_free_calls {nodeId : NodeId} {events : List Server.Event}
    (run : Run (Guarded CallFree Server.Moves) (.new nodeId) events server) :
    ¬ server.Cycle ∧ ∀ request after, Server.Moves server (.call request) after →
      (server.Blocked request ↔ after.Cycle ∨
        ∃ client last, Server.Moves after (.finish client) last ∧ last.Cycle) := by
  have free :=
    run.invariant (fun server => server.waiting = none) rfl fun _ _ _ free step => free_step free step
  refine ⟨no_cycle_of_free free, ?_⟩
  intro request after moves
  cases moves with
  | served _ _ granted returned =>
    have kept := (serve_waiting returned).trans free
    apply iff_of_false granted
    rintro (cycle | ⟨client, last, finish, cycle⟩)
    · exact no_cycle_of_free kept cycle
    · have step : Guarded CallFree Server.Moves after (.finish client) last := ⟨trivial, finish⟩
      exact no_cycle_of_free (free_step kept step) cycle
  | waits _ _ blocked =>
    obtain ⟨client, heldUp⟩ := blocked
    refine iff_of_true ⟨client, heldUp⟩ ?_
    have waiting : Server.HeldUp { server with waiting := some request } request client := heldUp
    rcases cycle_of_waiting rfl waiting with cycle | ⟨last, finish, cycle⟩
    · exact .inl cycle
    · exact .inr ⟨client, last, finish, cycle⟩

end

theorem no_cycle_of_free_calls_two_clients : ∃ server,
    Run (Guarded CallFree (@Server.Moves ⟨true⟩)) (.new 1)
      [.observe (decidedOf 0), .call (.beginMutTx 1), .finish 1] server ∧
    ¬ server.Cycle ∧ server.Blocked (.beginMutTx 2) := by
  let : BuildProfile := ⟨true⟩
  have run : Run (Guarded CallFree Server.Moves) (.new 1)
      ([] ++ [.observe (decidedOf 0)] ++ [.call (.beginMutTx 1)] ++ [.finish 1]) _ :=
    ((Run.nil.snoc ⟨trivial, .observe (decidedOf 0) rfl⟩).snoc
      ⟨free_of_idle (fun _ => rfl) _, .served rfl rfl (free_of_idle (fun _ => rfl) _) rfl⟩).snoc
      ⟨trivial, .finishWrite rfl⟩
  exact ⟨_, run, (no_cycle_of_free_calls run).1, 1, .write, .write, rfl, .head _, rfl⟩

/-- A second client, or the runner with a newly decided entry, takes the mutex
while the first transaction is open: its client then waits to commit for good. -/
theorem open_transaction_locks_node :
    (∃ server, Run (@Server.Moves ⟨true⟩) (.new 1)
      [.observe (decidedOf 0), .call (.beginMutTx 1), .call (.beginMutTx 2), .finish 1]
        server ∧ server.Cycle) ∧
    ∃ server, Run (@Server.Moves ⟨true⟩) (.new 1)
      [.observe (decidedOf 0), .call (.beginMutTx 1), .observe (decidedOf 1),
        .call .applyReplicatedTxns, .finish 1] server ∧
      server.Cycle := by
  let : BuildProfile := ⟨true⟩
  have opened : Run Server.Moves (.new 1) ([] ++ [.observe (decidedOf 0)] ++ [.call (.beginMutTx 1)]) _ :=
    (Run.nil.snoc (.observe (decidedOf 0) rfl)).snoc
      (.served rfl (by exact rfl) (free_of_idle (fun _ => rfl) _) rfl)
  refine ⟨⟨_, (opened.snoc (.waits rfl (by exact rfl) ?_)).snoc (.finishWrite rfl), ?_⟩,
    ⟨_, ((opened.snoc (.observe (decidedOf 1) rfl)).snoc (.waits rfl (by exact trivial) ?_)).snoc
      (.finishWrite rfl), ?_⟩⟩
  · exact ⟨1, .write, .write, rfl, .head _, rfl⟩
  · exact ⟨.beginMutTx 2, 1, rfl, ⟨.write, .write, rfl, .head _, rfl⟩, rfl⟩
  · exact ⟨1, .write, .write, rfl, .head _, rfl⟩
  · exact ⟨.applyReplicatedTxns, 1, rfl, ⟨.write, .write, rfl, .head _, rfl⟩, rfl⟩

end OmniSpacetimeDb.Proofs.LockCycle
