import OmniSpacetimeDb.Proofs.Follower

/-! A leader that is demoted, and a follower that is promoted. Both go on from a
store that holds a decided prefix, and read the rest of the log. -/

namespace OmniSpacetimeDb.Proofs.LeaderChange
open Foundations Datastore Durability Cluster Store StoreRefinement StoreRollback StoreReplay
  LogIteration NodePoll Follower RowCodec

section Applied
variable [BuildProfile]

def applyLog (log : List DatabaseLogEntry) (replicated : HashMap String String) :
    Panics (HashMap String String) :=
  log.foldlM (fun replicated entry => (replayRows entry.txData replicated).map Prod.fst) replicated

theorem applyLog_append (log more : List DatabaseLogEntry) (replicated : HashMap String String) :
    applyLog (log ++ more) replicated = (applyLog log replicated).bind (applyLog more) := List.foldlM_append

theorem applyLog_snoc (log : List DatabaseLogEntry) (entry : DatabaseLogEntry)
    (replicated : HashMap String String) :
    applyLog (log ++ [entry]) replicated =
      (applyLog log replicated).bind fun replicated =>
        (replayRows entry.txData replicated).map Prod.fst := by
  rw [applyLog_append]
  congr 1
  funext middle
  simp [applyLog]

theorem applyLog_take {log : List DatabaseLogEntry} {target : HashMap String String}
    (applied : applyLog log ∅ = some target) (count : Nat) :
    ∃ middle, applyLog (log.take count) ∅ = some middle := by
  rw [← List.take_append_drop count log, applyLog_append] at applied
  obtain ⟨middle, found, _⟩ := Option.bind_eq_some_iff.mp applied
  exact ⟨middle, found⟩

/-- The rows of bounded transactions write what the transactions wrote, at whatever offsets
they are logged. -/
theorem applyLog_payloads {txs : List ClientTx} {log : List DatabaseLogEntry}
    (payloads : log.map DatabaseLogEntry.txData = txs.map payload) (fits : ∀ tx ∈ txs, TxFits tx)
    (rows : HashMap String String) :
    ∃ target, applyLog log rows = some target ∧
      ∀ key, target.lookup key = WriteLog.replay (txs.map writeSet) (fun key => rows.lookup key) key := by
  induction txs generalizing log rows with
  | nil =>
    obtain rfl := List.map_eq_nil_iff.mp payloads
    exact ⟨rows, rfl, fun _ => rfl⟩
  | cons tx txs ih =>
    obtain ⟨entry, rest, rfl, same, later⟩ := List.map_eq_cons_iff.mp payloads
    have written := replayRows_payload (fits tx List.mem_cons_self) rows
    rw [Update.Completes, ← same] at written
    obtain ⟨target, applied, view⟩ :=
      ih later (fun other member => fits other (List.mem_cons_of_mem tx member)) (replayed tx rows)
    refine ⟨target, ?_, ?_⟩
    · simp only [applyLog, List.foldlM_cons, written, Option.map_some,
        Option.bind_eq_bind, Option.bind_some]
      exact applied
    · intro key
      have first : WriteLog.overlay (writeSet tx) (fun key => rows.lookup key) = fun key =>
          (replayed tx rows).lookup key :=
        funext fun key => (replayed_lookup tx rows key).symm
      rw [view, List.map_cons, ← first]
      rfl

theorem applyLog_logOf {txs : List ClientTx} (fits : ∀ tx ∈ txs, TxFits tx) :
    ∃ target, applyLog (logOf txs) ∅ = some target ∧
    ∀ key, target.lookup key = WriteLog.replay (txs.map writeSet) WriteLog.empty key := by
  have payloads : (logOf txs).map DatabaseLogEntry.txData = txs.map payload := by
    apply List.ext_getElem?
    intro index
    rw [logOf, List.getElem?_map, List.getElem?_mapIdx, List.getElem?_map, Option.map_map]
    rfl
  exact applyLog_payloads payloads fits ∅

/-- The store holds exactly the first entries of the log, and the applied index says so. -/
structure InSync (log : List DatabaseLogEntry) (core : Core) (count : Nat) : Prop where
  applied : applyLog (log.take count) ∅ = some core.1.replicatedState
  drained : core.1.committedDiff = ∅
  next : core.1.nextTxOffset = count
  offset : core.1.replicatedTxOffset = lastOffset count
  index : core.2 = lastOffset count

end Applied

theorem advance_drained {state : CommittedState} (drained : state.committedDiff = ∅) (txOffset : Nat) :
    state.advanceReplicatedDurabilityOffset txOffset =
      { state with replicatedTxOffset := some txOffset } := by
  have empty : ∀ key, historyOf state key = [] := by
    intro key
    rw [historyOf, drained]
    rfl
  apply CommittedState.ext
  · rfl
  · rfl
  · apply Finmap.ext_lookup
    intro key
    rw [advance_replicatedState, empty]
    rfl
  · rw [drained]
    apply (sound_advance state txOffset).empty
    intro key
    rw [advance_history, empty]
    rfl

section InSync
variable [BuildProfile] {log : List DatabaseLogEntry} {before : Core} {count : Nat}

theorem InSync.sound (sync : InSync log before count) : Sound before.1 := sound_of_drained sync.drained

theorem InSync.caughtUp (sync : InSync log before count) : before.1.caughtUp = true := by
  rw [CommittedState.caughtUp, sync.next, sync.offset]
  cases count <;> simp [lastOffset]

theorem InSync.getCurOffset (sync : InSync log before count) :
    before.1.getCurOffset = lastOffset count := by
  rw [CommittedState.getCurOffset, sync.next]
  cases count <;> rfl

theorem InSync.resume (sync : InSync log before (count + 1)) : Follower.resume before = count + 1 := by
  rw [Follower.resume, sync.index]
  rfl

theorem InSync.step {entry : DatabaseLogEntry} {target : HashMap String String}
    (sync : InSync log before count) (positioned : Positioned log) (found : log[count]? = some entry)
    (applied : applyLog (log.take (count + 1)) ∅ = some target) :
    ∃ after replay, applyEntry before entry = some (after, replay) ∧ InSync log after (count + 1) ∧
      replayRows entry.txData before.1.replicatedState = some (after.1.replicatedState, replay) := by
  have longer : log.take (count + 1) = log.take count ++ [entry] := by
    rw [List.take_add_one, found]
    rfl
  have offset := positioned count entry found
  rw [longer, applyLog_snoc, sync.applied, Option.bind_some] at applied
  obtain ⟨⟨rows, replay⟩, made, rfl⟩ := Option.map_eq_some_iff.mp applied
  have stepped : applyEntry before entry =
      some ((⟨before.1.nextTxOffset + 1, some entry.txOffset, rows, before.1.committedDiff⟩,
      some entry.txOffset), replay) := by
    have replays : replayTransaction entry.txData before.1 = some (⟨before.1.nextTxOffset + 1,
        some (before.1.replicatedTxOffset.elim 0 fun offset => offset + 1), rows,
          before.1.committedDiff⟩, replay) := by
      rw [replayTransaction, if_pos sync.caughtUp, made]
      rfl
    rw [applyEntry, replays, Option.map_some]
    exact congrArg (fun state => some ((state, some entry.txOffset), replay))
      (@advance_drained ⟨before.1.nextTxOffset + 1, _, rows, before.1.committedDiff⟩
        sync.drained entry.txOffset)
  refine ⟨_, replay, stepped,
    ⟨?_, sync.drained, congrArg (· + 1) sync.next, congrArg some offset, congrArg some offset⟩, made⟩
  rw [longer, applyLog_snoc, sync.applied, Option.bind_some, made]
  rfl

theorem InSync.run {target : HashMap String String} (sync : InSync log before count)
    (positioned : Positioned log) (applied : applyLog log ∅ = some target) (within : count ≤ log.length) :
    ∃ after replays, applyEntries (log.drop count) before = some (after, replays) ∧
      InSync log after log.length ∧
      ∀ replay ∈ replays, ∃ entry ∈ log, ∃ rows made, replayRows entry.txData rows =
        some (made, replay) := by
  obtain ⟨left, length⟩ := Nat.exists_eq_add_of_le within
  induction left generalizing before count with
  | zero =>
    refine ⟨before, [], ?_, length ▸ sync, fun replay member => by cases member⟩
    rw [List.drop_eq_nil_of_le (by omega)]
    rfl
  | succ left ih =>
    have inside : count < log.length := by omega
    obtain ⟨middle, reached⟩ := applyLog_take applied (count + 1)
    obtain ⟨next, replay, first, further, made⟩ :=
      sync.step positioned (List.getElem?_eq_getElem inside) reached
    obtain ⟨after, replays, rest, final, results⟩ := ih further (by omega) (by omega)
    refine ⟨after, replay :: replays, ?_, final, ?_⟩
    · simp only [List.drop_eq_getElem_cons inside, applyEntries, first, Option.bind_some, rest]
      rfl
    · intro result member
      rcases List.mem_cons.mp member with rfl | later
      · exact ⟨log[count], List.getElem_mem inside, _, _, made⟩
      · exact results result later

theorem InSync.take {far : Nat} (sync : InSync log before count) (near : count ≤ far) :
    InSync (log.take far) before count := by
  refine ⟨?_, sync.drained, sync.next, sync.offset, sync.index⟩
  rw [List.take_take, Nat.min_eq_left near]
  exact sync.applied

end InSync

/-- The store of bounded transactions that is in sync shows what they wrote, at both levels. -/
theorem insync_get [BuildProfile] {txs : List ClientTx} {core : Core} {count : Nat}
    (fits : ∀ tx ∈ txs, TxFits tx) (sync : InSync (logOf txs) core count) (key : String)
    (level : DurabilityLevel) :
    core.1.get key level = some (WriteLog.replay ((txs.take count).map writeSet) WriteLog.empty key) := by
  obtain ⟨target, applied, view⟩ := applyLog_logOf fun tx member => fits tx (List.mem_of_mem_take member)
  rw [← logOf_take, sync.applied] at applied
  cases applied
  cases level <;> simp only [CommittedState.get, sync.drained, Finmap.lookup_empty, view]

section Demoted
variable [BuildProfile] {txs : List ClientTx} {node : Node}

theorem applied_of_view {count : Nat} {replicated : HashMap String String}
    (fits : ∀ tx ∈ txs, TxFits tx)
    (view : ∀ key, replicated.lookup key =
      WriteLog.replay ((txs.take count).map writeSet) WriteLog.empty key) :
    applyLog ((logOf txs).take count) ∅ = some replicated := by
  obtain ⟨target, applied, same⟩ := applyLog_logOf fun tx member => fits tx (List.mem_of_mem_take member)
  rw [logOf_take, applied]
  congr 1
  apply Finmap.ext_lookup
  intro key
  exact (same key).trans (view key).symm

private theorem rolled_back {position : Nat} (fits : ∀ tx ∈ txs, TxFits tx)
    (index : node.lastAppliedIndex = some position)
    (offset : node.datastore.replicatedTxOffset = some position)
    (view : ∀ key, node.datastore.replicatedState.lookup key =
      WriteLog.replay ((txs.take (position + 1)).map writeSet) WriteLog.empty key) :
    InSync (logOf txs) (node.datastore.rollbackToReplicatedDurabilityOffset, node.lastAppliedIndex)
      (position + 1) := by
  refine ⟨applied_of_view fits view, rfl, ?_, offset, index⟩
  rw [CommittedState.rollbackToReplicatedDurabilityOffset, offset]
  rfl

/-- The old leader drops its own commits, and from then on reads the new history:
whatever it had committed locally, its store is that of the decided prefix. -/
theorem demoted_leader_converges {position : Nat} {change : OmniPaxos} {other : NodeId}
    {polls : List Poll} (fits : ∀ tx ∈ txs, TxFits tx) (inside : position < txs.length)
    (recorded : node.currentLeader = some node.nodeId) (index : node.lastAppliedIndex = some position)
    (offset : node.datastore.replicatedTxOffset = some position)
    (view : ∀ key, node.datastore.replicatedState.lookup key =
      WriteLog.replay ((txs.take (position + 1)).map writeSet) WriteLog.empty key)
    (named : change.currentLeader = some other) (different : other ≠ node.nodeId)
    (follows : Follows node.nodeId (logOf txs) polls)
    (further : ∀ decided ∈ seen polls, position + 1 ≤ decided) :
    ∃ after replays decided, node.polls (.updateLeader change :: polls) = some (after, replays) ∧
      decided = (seen polls).getLast?.getD (position + 1) ∧
      (∀ key level, after.datastore.get key level =
        some (WriteLog.replay ((txs.take decided).map writeSet) WriteLog.empty key)) ∧
      after.lastAppliedIndex = some (decided - 1) ∧
      after.datastore.getReplicatedOffset = some (decided - 1) ∧
      after.datastore.nextTxOffset = decided ∧ ∀ replay ∈ replays, replay = .ok () := by
  have unrecorded : some other ≠ some node.nodeId := fun same => different (Option.some.inj same)
  have start := rolled_back fits index offset view
  have outcomes :=
    polls_eq { node with
      datastore := node.datastore.rollbackToReplicatedDurabilityOffset, currentLeader := some other }
    (logOf_positioned txs) unrecorded follows.follower follows.decides
  obtain ⟨latest, most⟩ := follows.reach_last further (by rw [logOf_length]; exact inside)
  have least := le_reach (position + 1) polls
  change outcome _ = applyEntries (((logOf txs).take (reach (resume (_, node.lastAppliedIndex)) polls)).drop
    (resume (_, node.lastAppliedIndex)))
      (node.datastore.rollbackToReplicatedDurabilityOffset, node.lastAppliedIndex) at outcomes
  rw [start.resume] at outcomes
  generalize reach (position + 1) polls = decided at latest most least outcomes
  have fitting : ∀ tx ∈ txs.take decided, TxFits tx :=
    fun tx member => fits tx (List.mem_of_mem_take member)
  have length : (logOf (txs.take decided)).length = decided := by
    rw [← logOf_take, List.length_take, Nat.min_eq_left most]
  obtain ⟨target, applied, _⟩ := applyLog_logOf fitting
  have prefixed := start.take least
  rw [logOf_take] at prefixed outcomes
  obtain ⟨final, replays, ran, sync, results⟩ :=
    prefixed.run (logOf_positioned _) applied (by rw [length]; exact least)
  rw [length] at sync
  rw [ran] at outcomes
  obtain ⟨⟨after, traced⟩, polled, same⟩ := Option.map_eq_some_iff.mp outcomes
  obtain ⟨rfl, rfl⟩ := Prod.mk.inj same
  have last : lastOffset decided = some (decided - 1) := by
    obtain ⟨previous, rfl⟩ : ∃ previous, decided = previous + 1 := ⟨decided - 1, by omega⟩
    rfl
  refine ⟨after, traced, decided, ?_, latest, ?_, ?_, ?_, sync.next, ?_⟩
  · simp only [Node.polls, Node.poll, update_demoted named different recorded, Option.bind_eq_bind,
      Option.bind_some, polled]
    rfl
  · intro key level
    have shown := insync_get fitting sync key level
    rwa [List.take_take, Nat.min_self] at shown
  · exact sync.index.trans last
  · exact sync.offset.trans last
  · intro replay member
    obtain ⟨entry, logged, rows, made, returned⟩ := results replay member
    obtain ⟨position, found⟩ := List.mem_iff_getElem?.mp logged
    rw [logOf, List.getElem?_mapIdx] at found
    obtain ⟨tx, written, rfl⟩ := Option.map_eq_some_iff.mp found
    have replayed := replayRows_payload (fitting tx (List.mem_of_getElem? written)) rows
    exact congrArg Prod.snd (Option.some.inj (returned.symm.trans replayed))

end Demoted

private theorem other_recorded {node : Node} {old : NodeId}
    (recorded : node.currentLeader ≠ some node.nodeId) (known : node.currentLeader = some old) :
    old ≠ node.nodeId := by
  rintro rfl
  exact recorded known

section Promoted
variable [BuildProfile] {node : Node} {omnipaxos : OmniPaxos} {log : List DatabaseLogEntry} {count : Nat}

/-- After the two polls that follow the election, the new leader holds the whole
decided log, and its next commit takes the next position. -/
def Promotes (node : Node) (omnipaxos : OmniPaxos) (log : List DatabaseLogEntry) : Prop :=
  ∃ after replays, node.polls [.updateLeader omnipaxos, .applyReplicatedTxns omnipaxos] =
    some (after, replays) ∧
    applyLog log ∅ = some after.datastore.replicatedState ∧ after.lastAppliedIndex = some (log.length - 1) ∧
    ∀ tx, ∃ result entry committed, after.execute omnipaxos tx = some (.ok (result, entry, committed)) ∧
      result.txOffset = log.length

private theorem two_polls {first second : Node} {replays more : List Replay}
    (updated : node.updateLeader omnipaxos = some (first, replays))
    (applied : first.applyReplicatedTxns omnipaxos = some (second, more)) :
    node.polls [.updateLeader omnipaxos, .applyReplicatedTxns omnipaxos] =
      some (second, replays ++ more) := by
  simp only [Node.polls, Node.poll, updated, applied, Option.bind_eq_bind,
    Option.bind_some, List.append_nil]
  rfl

private theorem promoted_of_sync {after : Node} {replays : List Replay}
    (polled : node.polls [.updateLeader omnipaxos, .applyReplicatedTxns omnipaxos] = some (after, replays))
    (leader : omnipaxos.currentLeader = some after.nodeId) (some_decided : log ≠ [])
    (sync : InSync log (core after) log.length) :
    Promotes node omnipaxos log := by
  refine ⟨after, replays, polled, ?_, ?_, ?_⟩
  · have applied := sync.applied
    rwa [List.take_length] at applied
  · apply sync.index.trans
    cases log with
    | nil => exact absurd rfl some_decided
    | cons entry entries => rfl
  · intro tx
    exact ⟨_, _, _, execute_leader leader sync.sound tx, sync.next⟩

variable (node) (decides : omnipaxos.Decides log) (positioned : Positioned log) (some_decided : log ≠ [])
  (leader : omnipaxos.currentLeader = some node.nodeId) (sync : InSync log (core node) count)
include decides positioned some_decided leader sync

private theorem catch_up {target : HashMap String String} (applied : applyLog log ∅ = some target)
    (positive : 1 ≤ count) (lagging : count < log.length) (promoted : node.gotPromotedLeader = true) :
    ∃ after replays,
      node.applyReplicatedTxns omnipaxos =
        some ({ withCore node after with gotPromotedLeader := false }, replays) ∧
      InSync log after log.length := by
  obtain ⟨previous, rfl⟩ : ∃ previous, count = previous + 1 := ⟨count - 1, by omega⟩
  obtain ⟨last, length⟩ : ∃ last, log.length = last + 1 := ⟨log.length - 1, by omega⟩
  have behind : node.lastAppliedIndex ≠ lastOffset log.length := by
    intro same
    have index := sync.index.symm.trans same
    rw [length] at index
    have := Option.some.inj index
    omega
  have current : node.datastore.getCurOffset = some previous := sync.getCurOffset
  have mode : node.takesFromMemory omnipaxos = some false := by
    rw [takesFromMemory_promoted decides positioned leader promoted, current, length]
    have : ¬ previous = last := by omega
    simpa [lastOffset] using this
  obtain ⟨after, replays, ran, final, _⟩ := sync.run positioned applied (Nat.le_of_lt lagging)
  refine ⟨after, replays, ?_, final⟩
  have resumed : node.lastAppliedIndex.getD 0 + 1 = previous + 1 := sync.resume
  rw [apply_replays decides positioned some_decided behind mode, resumed, ran]
  rfl

omit some_decided in
/-- A leader that is not marked as promoted takes the offset of the last decided
entry, but neither its rows nor a new offset for its next commit. -/
private theorem skips_rows (lagging : count < log.length) (direct : node.gotPromotedLeader = false) :
    ∃ after,
    node.applyReplicatedTxns omnipaxos = some (after, []) ∧ after.nodeId = node.nodeId ∧
    after.datastore.committedDiff = ∅ ∧
      after.datastore.nextTxOffset = count := by
  obtain ⟨last, length⟩ : ∃ last, log.length = last + 1 := ⟨log.length - 1, by omega⟩
  have behind : node.lastAppliedIndex ≠ some last := by
    intro same
    have index := sync.index.symm.trans same
    cases count with
    | zero => cases index
    | succ previous =>
      have := Option.some.inj index
      omega
  refine ⟨_, apply_advances decides positioned length behind
    (takesFromMemory_leader leader direct), rfl, ?_, sync.next⟩
  have drained : node.datastore.committedDiff = ∅ := sync.drained
  change (node.datastore.advanceReplicatedDurabilityOffset last).committedDiff = ∅
  rw [advance_drained drained]
  exact drained

private theorem fresh_panics (fresh : count = 0) (promoted : node.gotPromotedLeader = true) :
    node.applyReplicatedTxns omnipaxos = none := by
  subst fresh
  exact apply_panics decides positioned some_decided leader promoted sync.index sync.next

variable {node}

omit decides positioned some_decided leader sync in
private theorem polls_none (failed : node.updateLeader omnipaxos = none) :
    node.polls [.updateLeader omnipaxos, .applyReplicatedTxns omnipaxos] = none := by
  simp only [Node.polls, Node.poll, failed, Option.bind_eq_bind, Option.bind_none]

omit decides positioned some_decided leader sync in
private theorem polls_second_none {first : Node} {replays : List Replay}
    (updated : node.updateLeader omnipaxos = some (first, replays))
    (failed : first.applyReplicatedTxns omnipaxos = none) :
    node.polls [.updateLeader omnipaxos, .applyReplicatedTxns omnipaxos] = none := by
  simp only [Node.polls, Node.poll, updated, failed, Option.bind_eq_bind,
    Option.bind_some, Option.bind_none]

private theorem condition_of_promotes (recorded : node.currentLeader ≠ some node.nodeId)
    (within : count ≤ log.length) (promotes : Promotes node omnipaxos log) :
    1 ≤ count ∧ (count = log.length ∨ node.currentLeader ≠ none ∨ node.gotPromotedLeader = true) := by
  obtain ⟨after, replays, polled, _, _, commits⟩ := promotes
  have length := List.length_pos_iff.mpr some_decided
  cases known : node.currentLeader with
  | none =>
    have updated := update_first leader known
    by_cases reached : count = log.length
    · exact ⟨by omega, .inl reached⟩
    · cases promoted : node.gotPromotedLeader with
      | true =>
        refine ⟨?_, .inr (.inr rfl)⟩
        apply Nat.pos_of_ne_zero
        intro fresh
        have failed :=
          fresh_panics { node with currentLeader := some node.nodeId } decides positioned
            some_decided leader sync
          fresh promoted
        rw [polls_second_none updated failed] at polled
        cases polled
      | false =>
        obtain ⟨skipped, applied, same, drained, next⟩ :=
          skips_rows { node with currentLeader := some node.nodeId } decides
          positioned leader sync (by omega) promoted
        rw [two_polls updated applied] at polled
        cases polled
        obtain ⟨result, entry, committed, executed, offset⟩ := commits (put "" "")
        rw [execute_leader (same ▸ leader) (sound_of_drained drained)] at executed
        cases executed
        exact absurd (next.symm.trans offset) reached
  | some old =>
    refine ⟨?_, .inr (.inl (Option.some_ne_none old))⟩
    apply Nat.pos_of_ne_zero
    intro fresh
    have different := other_recorded recorded known
    have failed :=
      fresh_panics { node with gotPromotedLeader := true } decides positioned
        some_decided leader sync fresh rfl
    have panicked : node.updateLeader omnipaxos = none := by
      rw [update_promoted leader different known, failed]
      rfl
    rw [polls_none panicked] at polled
    cases polled

private theorem promotes_of_condition {target : HashMap String String}
    (applied : applyLog log ∅ = some target) (recorded : node.currentLeader ≠ some node.nodeId)
    (within : count ≤ log.length) (positive : 1 ≤ count)
    (ready : count = log.length ∨ node.currentLeader ≠ none ∨ node.gotPromotedLeader = true) :
    Promotes node omnipaxos log := by
  by_cases reached : count = log.length
  · subst reached
    cases known : node.currentLeader with
    | none =>
      have idle : Node.applyReplicatedTxns { node with currentLeader := some node.nodeId } omnipaxos = _ :=
        apply_idle decides positioned (.inr sync.index)
      exact promoted_of_sync (two_polls (update_first leader known) idle) leader some_decided sync
    | some old =>
      have different := other_recorded recorded known
      have updated := update_promoted leader different known
      have idle : Node.applyReplicatedTxns { node with gotPromotedLeader := true } omnipaxos = _ :=
        apply_idle decides positioned (.inr sync.index)
      rw [idle, Option.map_some] at updated
      exact promoted_of_sync (two_polls updated (apply_idle decides positioned (.inr sync.index)))
        leader some_decided sync
  · have lagging : count < log.length := by omega
    cases known : node.currentLeader with
    | none =>
      have promoted : node.gotPromotedLeader = true := by
        rcases ready with reads | recorded | promoted
        · exact absurd reads reached
        · exact absurd known recorded
        · exact promoted
      obtain ⟨after, replays, ran, final⟩ :=
        catch_up { node with currentLeader := some node.nodeId } decides positioned
        some_decided leader sync applied positive lagging promoted
      exact promoted_of_sync (two_polls (update_first leader known) ran) leader some_decided final
    | some old =>
      have different := other_recorded recorded known
      have updated := update_promoted leader different known
      obtain ⟨after, replays, ran, final⟩ :=
        catch_up { node with gotPromotedLeader := true } decides positioned
        some_decided leader sync applied positive lagging rfl
      rw [ran, Option.map_some] at updated
      exact promoted_of_sync (two_polls updated (apply_idle decides positioned (.inr final.index)))
        leader some_decided final

/-- A node that lags behind is brought up to date by its election if and only if
it has applied an entry before, and is marked as promoted: the mark is set only
when another leader was recorded. -/
theorem promotes_iff {target : HashMap String String} (applied : applyLog log ∅ = some target)
    (within : count ≤ log.length) (recorded : node.currentLeader ≠ some node.nodeId) :
    Promotes node omnipaxos log ↔
      1 ≤ count ∧ (count = log.length ∨ node.currentLeader ≠ none ∨ node.gotPromotedLeader = true) :=
  ⟨condition_of_promotes decides positioned some_decided leader sync recorded within,
    fun ⟨positive, ready⟩ => promotes_of_condition decides positioned some_decided leader sync applied
      recorded within positive ready⟩

end Promoted

theorem demoted_leader_converges_on_new_entry : ∃ after replays,
    @Node.polls ⟨true⟩
      ⟨1, committed (put "b" "9") ((committed (put "a" "1") .new).advanceReplicatedDurabilityOffset 0),
        some 0, some 1, false⟩
      (.updateLeader (.ofLog (some 2) (logOf [put "a" "1", put "a" "2"]) 1) ::
        applies (logOf [put "a" "1", put "a" "2"]) [(some 2, 2)]) = some (after, replays) ∧
      after.datastore.get "a" .memory = some (some "2") ∧ after.datastore.get "b" .memory = some none := by
  have settled := settled_new.advance_all [put "a" "1"] 0 rfl
  have fits : ∀ tx ∈ [put "a" "1", put "a" "2"], TxFits tx := by decide
  have follows : Follows 1 (logOf [put "a" "1", put "a" "2"])
      (applies (logOf [put "a" "1", put "a" "2"]) [(some 2, 2)]) :=
    follows_applies (by decide) (by decide) (by decide)
  obtain ⟨after, replays, decided, polled, rfl, views, _⟩ :=
    @demoted_leader_converges ⟨true⟩ [put "a" "1", put "a" "2"]
    ⟨1, committed (put "b" "9") ((committed (put "a" "1") .new).advanceReplicatedDurabilityOffset 0),
      some 0, some 1, false⟩
    0 (.ofLog (some 2) (logOf [put "a" "1", put "a" "2"]) 1) 2 _ fits
      (by decide) rfl rfl rfl settled.view rfl (by decide) follows (by decide)
  exact ⟨after, replays, polled, views "a" .memory, views "b" .memory⟩

theorem promotes_iff_one_entry_behind : @Promotes ⟨true⟩
    ⟨2, (committed (put "a" "1") .new).advanceReplicatedDurabilityOffset 0, some 0, some 1, false⟩
    (.ofLog (some 2) (logOf [put "a" "1", put "b" "2"]) 2) (logOf [put "a" "1", put "b" "2"]) := by
  let : BuildProfile := ⟨true⟩
  have settled := settled_new.advance_all [put "a" "1"] 0 rfl
  have fits : ∀ tx ∈ [put "a" "1", put "b" "2"], TxFits tx := by decide
  have decides : (OmniPaxos.ofLog (some 2) (logOf [put "a" "1", put "b" "2"]) 2).Decides
      (logOf [put "a" "1", put "b" "2"]) :=
    ofLog_decides (some 2) (Nat.le_refl 2)
  have sync : InSync (logOf [put "a" "1", put "b" "2"])
      (core ⟨2, (committed (put "a" "1") .new).advanceReplicatedDurabilityOffset 0,
        some 0, some 1, false⟩) 1 :=
    ⟨applied_of_view fits settled.view, settled.drained, settled.next, settled.offset, rfl⟩
  obtain ⟨target, applied, _⟩ := applyLog_logOf fits
  exact (promotes_iff decides (logOf_positioned _) (List.cons_ne_nil _ _) rfl sync applied
    (by decide) (by decide)).mpr
    ⟨Nat.le_refl 1, .inr (.inl (Option.some_ne_none 1))⟩

/-- Node 2 has applied nothing, and one entry is decided when it replaces node 1: the
promotion panics. -/
theorem promotion_panics :
    (OmniPaxos.ofLog (some 2) (logOf [put "a" "1"]) 1).Decides (logOf [put "a" "1"]) ∧
      @InSync ⟨true⟩ (logOf [put "a" "1"]) (core ⟨2, .new, none, some 1, false⟩) 0 ∧
      @Node.updateLeader ⟨true⟩ ⟨2, .new, none, some 1, false⟩
        (.ofLog (some 2) (logOf [put "a" "1"]) 1) = none ∧
      ¬ @Promotes ⟨true⟩ ⟨2, .new, none, some 1, false⟩ (.ofLog (some 2) (logOf [put "a" "1"]) 1)
        (logOf [put "a" "1"]) := by
  let : BuildProfile := ⟨true⟩
  have panicked : Node.updateLeader ⟨2, .new, none, some 1, false⟩
      (.ofLog (some 2) (logOf [put "a" "1"]) 1) = none := rfl
  refine ⟨ofLog_decides (some 2) (Nat.le_refl 1), ⟨rfl, rfl, rfl, rfl, rfl⟩, panicked, ?_⟩
  rintro ⟨after, replays, polled, _⟩
  rw [polls_none panicked] at polled
  cases polled

end OmniSpacetimeDb.Proofs.LeaderChange
