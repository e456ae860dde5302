import OmniSpacetimeDb.Proofs.LockCycle
import OmniSpacetimeDb.Proofs.NodeOperations
import OmniSpacetimeDb.Proofs.Transaction

/-! Clients, runner and store of one node together. In every interleaving the
store is what whole operations leave one after another, and each transaction
commits the calls its client made since it began. -/

namespace OmniSpacetimeDb.Proofs.Serializability
open Foundations Datastore Durability OmniPaxosDurability Cluster Store NodePoll Watermark
  Transaction NodeOperations

/-- What the events tell of the transactions: the calls of each that is open, and
those of each that was committed while the node was named leader. -/
structure Trace where
  omnipaxos : OmniPaxos
  calls : ClientId → List Call
  commits : List (List Call)

def Trace.record (nodeId : NodeId) (trace : Trace) : Server.Event → Trace
  | .observe omnipaxos => { trace with omnipaxos }
  | .use client call =>
    { trace with calls := Function.update trace.calls client (trace.calls client ++ [call]) }
  | .drop client | .release client => { trace with calls := Function.update trace.calls client [] }
  | .commit client _ => { trace with
      calls := Function.update trace.calls client []
      commits :=
        if trace.omnipaxos.currentLeader = some nodeId then trace.commits ++ [trace.calls client]
        else trace.commits }
  | .call _ | .resume | .finish _ => trace

def traceOf (nodeId : NodeId) (events : List Server.Event) : Trace :=
  events.foldl (Trace.record nodeId) ⟨.ofLog none [] 0, fun _ => [], []⟩

/-- An open transaction works on the store as it is, with what its calls wrote so far. -/
def Fits (calls : List Call) (datastore : CommittedState) : Client → Prop
  | .idle => calls = []
  | .reading tx | .releasing tx => tx.committedState = datastore
  | .writing tx | .committing tx => tx = ⟨writes calls, datastore⟩

/-- While a transaction writes no other one is open. -/
def Alone (server : Server) : Prop :=
  ∀ client, (server.clients client).holds = some .write → ∀ other, other ≠ client →
    server.clients other = .idle

structure Serial [BuildProfile] (nodeId : NodeId) (trace : Trace) (server : Server) : Prop where
  named : server.node.nodeId = nodeId
  observed : trace.omnipaxos = server.omnipaxos
  store : ∃ operations, Run Operates .new operations server.node.datastore ∧
    operations.filterMap committedCalls = trace.commits
  fits : ∀ client, Fits (trace.calls client) server.node.datastore (server.clients client)
  alone : Alone server
  ready : ∀ request, server.waiting = some request → server.Ready request

theorem holds_none_iff {client : Client} : client.holds = none ↔ client = .idle := by
  cases client <;> simp [Client.holds]

theorem excludes_write (held : LockMode) : held.excludes .write = true := by
  cases held <;> rfl

theorem idle_of_unblocked {server : Server} {request : Request} (granted : ¬ server.Blocked request)
    (writes : .write ∈ server.locks request) (client : ClientId) : server.clients client = .idle := by
  rw [← holds_none_iff]
  cases holds : (server.clients client).holds with
  | none => rfl
  | some held => exact absurd ⟨client, held, .write, holds, writes, excludes_write held⟩ granted

theorem unwritten_of_unblocked {server : Server} {request : Request}
    (granted : ¬ server.Blocked request) (reads : .read ∈ server.locks request) (client : ClientId) :
    (server.clients client).holds ≠ some .write :=
  fun holds => granted ⟨client, .write, .read, holds, reads, rfl⟩

theorem ready_setClient {server : Server} {request : Request} {client : ClientId} (state : Client)
    (ready : server.Ready request) (busy : server.clients client ≠ .idle) :
    (server.setClient client state).Ready request := by
  cases request with
  | beginTx other | beginMutTx other =>
    have idle : server.clients other = .idle := ready
    have different : other ≠ client := fun same => busy (same ▸ idle)
    exact (Function.update_of_ne different _ _).trans idle
  | updateLeader | applyReplicatedTxns => trivial

theorem clients_setClient (server : Server) (client other : ClientId) (state : Client) :
    (server.setClient client state).clients other =
      if other = client then state else server.clients other :=
  Function.update_apply _ _ _ _

section Steps
variable [BuildProfile] {nodeId : NodeId} {trace : Trace} {server after : Server} {client : ClientId}

theorem serial_new (nodeId : NodeId) : Serial nodeId ⟨.ofLog none [] 0, fun _ => [], []⟩ (.new nodeId) where
  named := rfl
  observed := rfl
  store := ⟨[], .nil, rfl⟩
  fits _ := rfl
  alone _ holds := by cases holds
  ready _ waits := by cases waits

omit [BuildProfile] in
theorem alone_setClient {state : Client} (alone : Alone server)
    (keeps : state = .idle ∨ state.holds = (server.clients client).holds ∧ server.clients client ≠ .idle) :
    Alone (server.setClient client state) := by
  intro writer holds other different
  rw [clients_setClient] at holds ⊢
  by_cases mine : writer = client
  · rw [if_pos mine] at holds
    rw [if_neg (mine ▸ different)]
    rcases keeps with rfl | ⟨same, _⟩
    · cases holds
    · exact alone client (same.symm.trans holds) other (mine ▸ different)
  · rw [if_neg mine] at holds
    have idle := alone writer holds
    split
    next same =>
      rcases keeps with rfl | ⟨_, busy⟩
      · rfl
      · exact absurd (idle client (Ne.symm mine)) busy
    next => exact idle other different

/-- One client goes on; its calls and its transaction change together. -/
theorem Serial.setClient (serial : Serial nodeId trace server) {calls : List Call} {state : Client}
    (fits : Fits calls server.node.datastore state) (alone : Alone (server.setClient client state))
    (ready : ∀ request, server.waiting = some request → (server.setClient client state).Ready request) :
    Serial nodeId { trace with calls := Function.update trace.calls client calls }
      (server.setClient client state) := by
  refine ⟨serial.named, serial.observed, serial.store, ?_, alone, ready⟩
  intro other
  rw [clients_setClient]
  simp only [Function.update_apply]
  split
  · exact fits
  · exact serial.fits other

/-- A call of the runner changes the store only when no transaction is open. -/
theorem Serial.setNode (serial : Serial nodeId trace server) {request : Request} {node : Node}
    (granted : ¬ server.Blocked request) (named : node.nodeId = server.node.nodeId)
    (settles : Settles server.node.datastore node.datastore)
    (unwritten : .write ∉ server.locks request → core node = core server.node) :
    Serial nodeId trace (server.setNode node) := by
  obtain ⟨operations, run, commits⟩ := serial.store
  obtain ⟨more, further, none⟩ := settles
  refine ⟨named.trans serial.named, serial.observed,
    ⟨operations ++ more, run.append further, ?_⟩, ?_, serial.alone, ?_⟩
  · rw [List.filterMap_append, none, List.append_nil, commits]
  · intro client
    have before := serial.fits client
    by_cases writes : .write ∈ server.locks request
    · have idle := idle_of_unblocked granted writes client
      rw [idle] at before
      simp only [Server.setNode, idle]
      exact before
    · have same : node.datastore = server.node.datastore := congrArg Prod.fst (unwritten writes)
      simp only [Server.setNode, same]
      exact before
  · intro request waits
    have ready := serial.ready request waits
    cases request <;> exact ready

theorem Serial.observe (serial : Serial nodeId trace server) (omnipaxos : OmniPaxos) :
    Serial nodeId { trace with omnipaxos } { server with omnipaxos } := by
  refine ⟨serial.named, rfl, serial.store, serial.fits, serial.alone, ?_⟩
  intro request waits
  have ready := serial.ready request waits
  cases request <;> exact ready

theorem Serial.cleared (serial : Serial nodeId trace server) :
    Serial nodeId trace { server with waiting := none } :=
  ⟨serial.named, serial.observed, serial.store, serial.fits, serial.alone, nofun⟩

/-- A transaction begins with no calls, on the store as it is. -/
theorem Serial.begins (serial : Serial nodeId trace server) {state : Client}
    (idle : server.clients client = .idle) (fits : Fits [] server.node.datastore state)
    (alone : Alone (server.setClient client state)) :
    Serial nodeId trace { server.setClient client state with waiting := none } := by
  have fresh : trace.calls client = [] := by
    have before := serial.fits client
    rwa [idle] at before
  have opened := serial.cleared.setClient (fresh ▸ fits) alone nofun
  rw [Function.update_eq_self] at opened
  exact opened

theorem Serial.serve (serial : Serial nodeId trace server) {request : Request}
    (ready : server.Ready request) (granted : ¬ server.Blocked request)
    (returned : server.serve request = some after) :
    Serial nodeId trace { after with waiting := none } := by
  cases request with
  | beginTx client durabilityLevel =>
    cases returned
    refine serial.begins ready rfl ?_
    intro writer holds
    rw [clients_setClient] at holds
    split at holds
    · cases holds
    · exact absurd holds (unwritten_of_unblocked granted List.mem_cons_self writer)
  | beginMutTx client =>
    simp only [Server.serve, Node.beginMutTx] at returned
    cases leader : (server.node.omniDurability server.omnipaxos).isLeader with
    | true =>
      simp only [leader, if_true] at returned
      cases returned
      refine serial.begins ready rfl ?_
      intro writer holds other different
      have idle :=
        idle_of_unblocked granted (by simp only [Server.locks, leader, if_true, List.mem_singleton])
      rw [clients_setClient] at holds ⊢
      split at holds
      next mine => rw [if_neg (mine ▸ different), idle other]
      next =>
        rw [idle writer] at holds
        cases holds
    | false =>
      simp only [leader, Bool.false_eq_true, if_false] at returned
      cases returned
      exact serial.cleared
  | updateLeader =>
    obtain ⟨⟨node, replays⟩, updated, rfl⟩ := Option.map_eq_some_iff.mp returned
    have served := serial.setNode granted (update_nodeId updated) (update_settles updated)
      fun unwritten => update_unwritten unwritten updated
    exact served.cleared
  | applyReplicatedTxns =>
    obtain ⟨⟨node, replays⟩, applied, rfl⟩ := Option.map_eq_some_iff.mp returned
    have served := serial.setNode granted (apply_nodeId applied) (apply_settles applied)
      fun unwritten => apply_unwritten unwritten applied
    exact served.cleared

omit [BuildProfile] in
theorem call_write {tx next : MutTx} {call : Call} (sound : Sound tx.committedState)
    (returned : tx.call call = some next) :
    next = { tx with diff := call.write tx.diff } := by
  have ran := run_eq tx sound [call]
  have one : tx.run [call] = tx.call call := by
    simp only [MutTx.run, List.foldlM_cons, List.foldlM_nil, bind_pure]
  rw [one, returned] at ran
  exact Option.some.inj ran

omit [BuildProfile] in
theorem commit_leads {node after : Node} {omnipaxos : OmniPaxos} {tx : MutTx}
    {order : Entries String Diff} {result : TxResult} {entry : DatabaseLogEntry}
    (returned : node.commitMutTx omnipaxos tx order = .ok (result, entry, after)) :
    omnipaxos.currentLeader = some node.nodeId := by
  rw [Node.commitMutTx] at returned
  split at returned
  next leader => exact beq_iff_eq.mp leader
  · cases returned

omit [BuildProfile] in
theorem commit_refused {node : Node} {omnipaxos : OmniPaxos} {tx : MutTx} {order : Entries String Diff}
    {error : DatastoreError} (returned : node.commitMutTx omnipaxos tx order = .error error) :
    omnipaxos.currentLeader ≠ some node.nodeId := by
  rw [Node.commitMutTx] at returned
  split at returned
  · cases returned
  next follower => exact fun named => follower (beq_iff_eq.mpr named)

/-- A client goes on with the same transaction, and nothing else changes. -/
theorem Serial.continues (serial : Serial nodeId trace server) {state : Client}
    (fits : Fits (trace.calls client) server.node.datastore state)
    (holds : state.holds = (server.clients client).holds) (busy : server.clients client ≠ .idle) :
    Serial nodeId trace (server.setClient client state) := by
  have moved := serial.setClient fits (alone_setClient serial.alone (.inr ⟨holds, busy⟩))
    fun request waits => ready_setClient state (serial.ready request waits) busy
  rw [Function.update_eq_self] at moved
  exact moved

/-- A client is done with its transaction. -/
theorem Serial.ends (serial : Serial nodeId trace server) (busy : server.clients client ≠ .idle) :
    Serial nodeId { trace with calls := Function.update trace.calls client [] }
      (server.setClient client .idle) :=
  serial.setClient rfl (alone_setClient serial.alone (.inl rfl)) fun request waits =>
    ready_setClient .idle (serial.ready request waits) busy

theorem Serial.commits (serial : Serial nodeId trace server) {tx : MutTx} {order : Entries String Diff}
    {result : TxResult} {entry : DatabaseLogEntry} {node : Node}
    (inside : server.clients client = .committing tx) (visits : order.toFinmap = tx.diff)
    (returned : server.node.commitMutTx server.omnipaxos tx order = .ok (result, entry, node)) :
    Serial nodeId (trace.record nodeId (.commit client order))
      ((server.setNode node).setClient client .idle) := by
  have opened := serial.fits client
  rw [inside] at opened
  obtain rfl : tx = _ := opened
  let committing : ClientTx := ⟨trace.calls client, order, visits⟩
  obtain ⟨operations, run, commits⟩ := serial.store
  have operates : Operates server.node.datastore (.commit committing)
      (committed committing server.node.datastore) :=
    .commit (execute_eq (sound_run run) committing)
  have named : trace.omnipaxos.currentLeader = some nodeId := by
    rw [serial.observed, commit_leads returned, serial.named]
  obtain rfl := commit_stores returned
  have writer : (server.clients client).holds = some .write := by
    rw [inside]
    rfl
  refine ⟨serial.named, serial.observed, ⟨_, run.snoc operates, ?_⟩, ?_,
    alone_setClient serial.alone (.inl rfl), ?_⟩
  · rw [List.filterMap_append, commits, Trace.record, if_pos named]
    rfl
  · intro other
    rw [clients_setClient]
    simp only [Trace.record, Function.update_apply]
    split
    · rfl
    next different =>
      have before := serial.fits other
      have idle := serial.alone client writer other different
      rw [idle] at before
      show Fits (trace.calls other) _ (server.clients other)
      rw [idle]
      exact before
  · intro request waits
    have ready := serial.ready request waits
    exact ready_setClient .idle (by cases request <;> exact ready)
      (fun idle => by rw [Server.setNode, inside] at idle; cases idle)

theorem serial_step {event : Server.Event} (serial : Serial nodeId trace server)
    (moves : Server.Moves server event after) :
    Serial nodeId (trace.record nodeId event) after := by
  cases moves with
  | observe omnipaxos => exact serial.observe omnipaxos
  | served free ready granted returned =>
    have served := serial.serve ready granted returned
    have waiting := (LockCycle.serve_waiting returned).trans free
    rw [← waiting] at served
    exact served
  | @waits request free ready blocked =>
    refine ⟨serial.named, serial.observed, serial.store, serial.fits, serial.alone, ?_⟩
    intro other waits
    cases waits
    cases request <;> exact ready
  | resumed waits granted returned => exact serial.serve (serial.ready _ waits) granted returned
  | @read client tx key inside =>
    refine ⟨serial.named, serial.observed, serial.store, ?_, serial.alone, serial.ready⟩
    intro other
    have before := serial.fits other
    by_cases mine : other = client
    · subst mine
      rw [inside] at before ⊢
      exact before
    · simp only [Trace.record, Function.update_of_ne mine]
      exact before
  | @used client call tx next inside returned =>
    have opened := serial.fits client
    rw [inside] at opened
    obtain rfl : tx = _ := opened
    obtain ⟨operations, run, _⟩ := serial.store
    obtain rfl := call_write (sound_run run) returned
    have written : writes (trace.calls client ++ [call]) = call.write (writes (trace.calls client)) := by
      rw [writes, List.foldl_append]
      rfl
    have busy : server.clients client ≠ .idle := fun idle => by rw [inside] at idle; cases idle
    refine serial.setClient ?_ (alone_setClient serial.alone (.inr ⟨by rw [inside]; rfl, busy⟩))
      fun request waits => ready_setClient _ (serial.ready request waits) busy
    rw [Fits, written]
  | @finishRead client tx inside | @finishWrite client tx inside =>
    have opened := serial.fits client
    rw [inside] at opened
    exact serial.continues opened (by rw [inside]; rfl) fun idle => by rw [inside] at idle; cases idle
  | @dropped client mode inside => exact serial.ends fun idle => by rw [idle] at inside; cases inside
  | @released client tx free inside => exact serial.ends fun idle => by rw [inside] at idle; cases idle
  | committed free inside visits returned => exact serial.commits inside visits returned
  | @refused client tx order error free inside returned =>
    have unnamed : trace.omnipaxos.currentLeader ≠ some nodeId := by
      rw [serial.observed, ← serial.named]
      exact commit_refused returned
    have busy : server.clients client ≠ .idle := fun idle => by rw [inside] at idle; cases idle
    have ended := serial.ends busy
    rw [Trace.record, if_neg unnamed]
    exact ended

theorem serial_run {events : List Server.Event} (run : Run Server.Moves (.new nodeId) events server) :
    Serial nodeId (traceOf nodeId events) server := by
  induction run with
  | nil => exact serial_new nodeId
  | snoc before last ih =>
    rw [traceOf, List.foldl_append]
    exact serial_step ih last

/-- What a transaction is answered does not depend on what others do while it is open. -/
theorem Serial.answers (serial : Serial nodeId trace server) :
    (∀ client tx, server.clients client = .writing tx →
      (∀ other, other ≠ client → server.clients other = .idle) ∧
      ∃ memory, (∀ key, server.node.datastore.get key .memory = some (memory key)) ∧ ∀ call, ∃ next,
        tx.reply call = some ((plainReply (plainReplies memory (trace.calls client)).2 call).1, next)) ∧
    ∀ client tx, server.clients client = .reading tx → ∀ key, ∃ value,
      tx.get key = some value ∧ server.node.datastore.get key tx.durabilityLevel = some value := by
  obtain ⟨operations, ran, _⟩ := serial.store
  have sound := sound_run ran
  constructor
  · intro client tx inside
    have opened := serial.fits client
    rw [inside] at opened
    obtain rfl : tx = _ := opened
    refine ⟨serial.alone client (by rw [inside]; rfl), _, get_memory sound, ?_⟩
    intro call
    have reply := @reply_eq _ ⟨writes (trace.calls client), server.node.datastore⟩ (get_memory sound) call
    rw [(begin_replies (get_memory sound) _).2] at reply
    exact ⟨_, reply⟩
  · intro client tx inside key
    have opened := serial.fits client
    rw [inside] at opened
    have same : tx.committedState = server.node.datastore := opened
    rw [Tx.get, same]
    cases tx.durabilityLevel with
    | memory => exact ⟨_, get_memory sound key, get_memory sound key⟩
    | replicated => exact ⟨_, get_replicated _ key, get_replicated _ key⟩

/-- Transactions are serializable in the order of their commits. The store is what
whole operations leave, whose commits are those accepted, each with the calls made
since it began; until then nobody else is let in, and each call is answered as the
plain map that the Memory view was would be. What a reader sees does not change. -/
theorem transactions_serialize {events : List Server.Event}
    (run : Run Server.Moves (.new nodeId) events server) :
    (∃ operations, Run Operates .new operations server.node.datastore ∧
      operations.filterMap committedCalls = (traceOf nodeId events).commits) ∧
    (∀ client tx, server.clients client = .writing tx →
      (∀ other, other ≠ client → server.clients other = .idle) ∧
      ∃ memory, (∀ key, server.node.datastore.get key .memory = some (memory key)) ∧ ∀ call, ∃ next,
        tx.reply call =
          some ((plainReply (plainReplies memory ((traceOf nodeId events).calls client)).2 call).1, next)) ∧
    ∀ client tx, server.clients client = .reading tx → ∀ key, ∃ value,
      tx.get key = some value ∧ server.node.datastore.get key tx.durabilityLevel = some value :=
  ⟨(serial_run run).store, (serial_run run).answers⟩

end Steps

/-- One client writes and commits, and another one then reads. -/
theorem transactions_serialize_write_read :
    ∃ events server tx, Run (@Server.Moves ⟨true⟩) (.new 1) events server ∧
    server.clients 2 = .reading tx ∧ tx.get "a" = some (some "1") ∧
    ∃ operations, Run (@Operates ⟨true⟩) .new operations server.node.datastore ∧
      operations.filterMap committedCalls = [[.set "a" "1"]] := by
  let : BuildProfile := ⟨true⟩
  obtain ⟨server, written, idle, free, stored⟩ :
    ∃ server, Run Server.Moves (.new 1) ([] ++ [.observe (.ofLog (some 1) [] 0)] ++
      [.call (.beginMutTx 1)] ++ [.use 1 (.set "a" "1")] ++ [.finish 1] ++
        [.commit 1 (AList.insert "a" (.insert "1") ∅)]) server ∧
      (∀ client, server.clients client = .idle) ∧ server.waiting = none ∧
      server.node.datastore.get "a" .memory = some (some "1") := by
    refine ⟨_,
      ((((Run.nil.snoc (.observe _ rfl)).snoc
        (.served rfl rfl (free_of_idle (fun _ => rfl) _) rfl)).snoc (.used rfl rfl)).snoc
      (.finishWrite rfl)).snoc (.committed rfl rfl rfl rfl), ?_, rfl, rfl⟩
    intro client
    rw [clients_setClient]
    split
    · rfl
    next other => simp [Server.setNode, Server.setClient, Server.new, other]
  have ready : server.Ready (.beginTx 2 .memory) := idle 2
  have run := written.snoc (.served free ready (free_of_idle idle _) rfl)
  obtain ⟨serial, _, _⟩ := transactions_serialize run
  exact ⟨_, _, _, run, (clients_setClient _ 2 2 _).trans (if_pos rfl), stored, serial⟩

end OmniSpacetimeDb.Proofs.Serializability
