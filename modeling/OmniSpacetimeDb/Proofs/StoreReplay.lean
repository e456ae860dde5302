import OmniSpacetimeDb.Proofs.RowCodec
import OmniSpacetimeDb.Proofs.StoreRollback

/-! Replaying the payload of a transaction, and the store of a follower that
replayed what a leader committed. -/

namespace OmniSpacetimeDb.Proofs.StoreReplay
open Foundations Datastore Store StoreRefinement StoreRollback RowCodec

/-- The replicated map after the rows of these entries, inserts first. -/
def applyDiff (entries : List (Sigma fun _ : String => Diff)) (replicated : HashMap String String) :
    HashMap String String :=
  (deletesOf entries).foldl (fun replicated key => replicated.erase key)
    ((insertsOf entries).foldl (fun replicated row => replicated.insert row.key row.value) replicated)

private theorem inserts_local : HashMap.Local
    (fun (replicated : HashMap String String) (key : String) (diff : Diff) => match diff.value with
      | some value => replicated.insert key value
      | none => replicated)
    (fun key replicated => replicated.lookup key) (fun _ diff seen => diff.value.or seen) where
  here replicated key diff := by
    cases diff with
    | insert value => exact Finmap.lookup_insert replicated
    | delete => rfl
  elsewhere replicated key diff other different := by
    cases diff with
    | insert value => exact Finmap.lookup_insert_of_ne replicated different
    | delete => rfl

private theorem deletes_local : HashMap.Local
    (fun (replicated : HashMap String String) (key : String) (diff : Diff) =>
      if diff.value.isNone then replicated.erase key else replicated)
    (fun key replicated => replicated.lookup key)
      (fun _ diff seen => if diff.value.isNone then none else seen) where
  here replicated key diff := by
    cases diff with
    | insert value => rfl
    | delete => exact Finmap.lookup_erase key replicated
  elsewhere replicated key diff other different := by
    cases diff with
    | insert value => rfl
    | delete => exact Finmap.lookup_erase_ne different

/-- No key is both inserted and deleted, so the two loops do not disturb each other. -/
theorem applyDiff_lookup (entries : List (Sigma fun _ : String => Diff)) (distinct : entries.NodupKeys)
    (replicated : HashMap String String) (key : String) : (applyDiff entries replicated).lookup key =
      (entries.dlookup key).elim (replicated.lookup key) Diff.value := by
  have inserts : ∀ start : HashMap String String,
      (insertsOf entries).foldl (fun replicated row => replicated.insert row.key row.value) start =
        entries.foldl (fun replicated entry => match entry.2.value with
          | some value => replicated.insert entry.1 value
          | none => replicated) start := by
    intro start
    rw [insertsOf, List.foldl_filterMap]
    congr 1
    funext replicated entry
    cases entry.2.value <;> rfl
  have deletes : ∀ start : HashMap String String,
      (deletesOf entries).foldl (fun replicated key => replicated.erase key) start =
        entries.foldl (fun replicated entry =>
          if entry.2.value.isNone then replicated.erase entry.1 else replicated) start := by
    intro start
    rw [deletesOf, List.foldl_map, List.foldl_filter]
  rw [applyDiff, deletes, deletes_local.foldl entries distinct, inserts,
    inserts_local.foldl entries distinct]
  cases entries.dlookup key with
  | none => rfl
  | some diff => cases diff <;> rfl

def replayed (tx : ClientTx) (replicated : HashMap String String) : HashMap String String :=
  applyDiff tx.order.entries replicated

theorem replayed_lookup (tx : ClientTx) (replicated : HashMap String String) (key : String) :
    (replayed tx replicated).lookup key = (writeSet tx key).getD (replicated.lookup key) := by
  rw [replayed, applyDiff_lookup _ tx.order.nodupKeys, writeSet, ← tx.visits,
    Finmap.lookup_toFinmap, AList.lookup]
  cases tx.order.entries.dlookup key <;> rfl

section Fits

/-- The lengths of what a call sets survive the cast to `u32`. -/
def CallFits : Call → Prop
  | .set key value => FitsU32 key ∧ FitsU32 value
  | .get _ | .delete _ => True

def TxFits (tx : ClientTx) : Prop := ∀ call ∈ tx.calls, CallFits call

instance : DecidablePred CallFits
  | .set _ _ => inferInstanceAs (Decidable (_ ∧ _))
  | .get _ | .delete _ => inferInstanceAs (Decidable True)

instance (tx : ClientTx) : Decidable (TxFits tx) :=
  inferInstanceAs (Decidable (∀ call ∈ tx.calls, CallFits call))

private theorem write_fits {call : Call} {diff : HashMap String Diff} (fits : CallFits call)
    (valid : ∀ key value, diff.lookup key = some (.insert value) → FitsU32 key ∧ FitsU32 value) :
    ∀ key value, (call.write diff).lookup key = some (.insert value) → FitsU32 key ∧ FitsU32 value := by
  intro key value found
  cases call with
  | get other => exact valid key value found
  | set other written =>
    rw [Call.write, HashMap.lookup_insert_eq] at found
    split at found
    next same =>
      cases found
      exact same ▸ fits
    next different => exact valid key value found
  | delete other =>
    rw [Call.write, HashMap.lookup_insert_eq] at found
    split at found
    next same => cases found
    next different =>
      rw [HashMap.lookup_erase_eq, if_neg different] at found
      exact valid key value found

private theorem writes_fit {calls : List Call} {diff : HashMap String Diff}
    (fits : ∀ call ∈ calls, CallFits call)
    (valid : ∀ key value, diff.lookup key = some (.insert value) → FitsU32 key ∧ FitsU32 value) :
    ∀ key value, (calls.foldl Call.write diff).lookup key = some (.insert value) →
      FitsU32 key ∧ FitsU32 value := by
  induction calls generalizing diff with
  | nil => exact valid
  | cons call calls ih =>
    exact ih (fun other member => fits other (List.mem_cons_of_mem _ member))
      (write_fits (fits call List.mem_cons_self) valid)

theorem insertsOf_fit {tx : ClientTx} (fits : TxFits tx) {row : ExampleRow}
    (member : row ∈ insertsOf tx.order.entries) :
    FitsU32 row.key ∧ FitsU32 row.value := by
  obtain ⟨⟨key, diff⟩, inside, made⟩ := List.mem_filterMap.mp member
  cases diff with
  | delete => cases made
  | insert value =>
    cases made
    have written : (writes tx.calls).lookup key = some (.insert value) := by
      rw [← tx.visits, Finmap.lookup_toFinmap]
      exact AList.mem_lookup_iff.mpr inside
    refine writes_fit fits ?_ key value written
    intro key value found
    cases found

end Fits

def replayedOn (tx : ClientTx) (state : CommittedState) : CommittedState :=
  { state with
    replicatedTxOffset := some (state.replicatedTxOffset.elim 0 fun offset => offset + 1)
    nextTxOffset := state.nextTxOffset + 1
    replicatedState := replayed tx state.replicatedState }

theorem replayedOn_settled {state : CommittedState} {log : List (WriteSet String String)}
    (settled : Settled state log) (tx : ClientTx) :
    Settled (replayedOn tx state) (log ++ [writeSet tx]) := by
  refine ⟨?_, ?_, ?_, settled.drained⟩
  · rw [List.length_append, List.length_singleton, ← settled.next]
    rfl
  · rw [List.length_append, List.length_singleton, ← settled.next, settled.next_eq]
    rfl
  · intro key
    rw [WriteLog.replay_snoc, WriteLog.overlay, ← settled.view]
    exact replayed_lookup tx state.replicatedState key

private theorem replayDeletes (keys : List String) (replicated : HashMap String String) :
    (Update.forEach replayDelete (keys.map fun key => ⟨utf8 key⟩)).Completes
      replicated (keys.foldl (fun replicated key => replicated.erase key) replicated) := by
  rw [Update.forEach_map]
  apply Update.Completes.forEach
  intro key _ replicated
  simp only [Update.Completes, replayDelete, fromUtf8_utf8]

section Replay
variable [BuildProfile]

private theorem replayInserts {rows : List ExampleRow}
    (fits : ∀ row ∈ rows, FitsU32 row.key ∧ FitsU32 row.value) (replicated : HashMap String String) :
    (Update.forEach replayInsert (rows.map fun row => ⟨serializeExampleRow row⟩)).Completes
      replicated (rows.foldl (fun replicated row => replicated.insert row.key row.value) replicated) := by
  rw [Update.forEach_map]
  apply Update.Completes.forEach
  intro row member replicated
  obtain ⟨key, value⟩ := fits row member
  simp only [Update.Completes, replayInsert, deserialize_serialize key value]

theorem replayRows_payload {tx : ClientTx} (fits : TxFits tx) (replicated : HashMap String String) :
    (replayRows (payload tx)).Completes replicated (replayed tx replicated) := by
  apply Update.Completes.andThen
  · exact Update.Completes.forEach_one
      (replayInserts (fun _ member => insertsOf_fit fits member) replicated)
  · exact Update.Completes.forEach_one (replayDeletes (deletesOf tx.order.entries) _)

/-- All that a replay can do, short of a panic: it is refused, or its rows are
written as far as they can be read, and the offsets grow all the same. -/
inductive Replayed (data : TxData) (before : CommittedState) :
    CommittedState → Except DatastoreError Unit → Prop
  | refused (behind : before.caughtUp = false) :
      Replayed data before before (.error .invalidDurabilityOffset)
  | written {rows : HashMap String String} {result : Except DatastoreError Unit}
      (caughtUp : before.caughtUp = true)
      (read : replayRows data before.replicatedState = some (rows, result)) :
      Replayed data before { before with
        replicatedTxOffset := some (before.replicatedTxOffset.elim 0 fun offset => offset + 1)
        nextTxOffset := before.nextTxOffset + 1
        replicatedState := rows } result

theorem replay_cases {data : TxData} {before after : CommittedState}
    {result : Except DatastoreError Unit}
    (replayed : replayTransaction data before = some (after, result)) :
    Replayed data before after result := by
  rw [replayTransaction] at replayed
  split at replayed
  next caughtUp =>
    obtain ⟨⟨rows, outcome⟩, read, made⟩ := Option.bind_eq_some_iff.mp replayed
    cases made
    exact .written caughtUp read
  next behind =>
    cases replayed
    exact .refused (Bool.eq_false_iff.mpr behind)

/-- All that an operation can leave. -/
inductive Operated (before : CommittedState) : Operation → CommittedState → Prop
  | committed (tx : ClientTx) : Operated before (.commit tx) (committed tx before)
  | advanced (txOffset : Nat) :
      Operated before (.advance txOffset) (before.advanceReplicatedDurabilityOffset txOffset)
  | rolledBack : Operated before .rollback before.rollbackToReplicatedDurabilityOffset
  | refused {data : TxData} : Operated before (.replay data) before
  | replayed {data : TxData} {rows : HashMap String String} (caughtUp : before.caughtUp = true) :
      Operated before (.replay data) { before with
        replicatedTxOffset := some (before.replicatedTxOffset.elim 0 fun offset => offset + 1)
        nextTxOffset := before.nextTxOffset + 1
        replicatedState := rows }

theorem operates_cases {operation : Operation} {before after : CommittedState} (sound : Sound before)
    (operates : Operates before operation after) : Operated before operation after := by
  cases operates with
  | commit returned =>
    rw [execute_eq sound] at returned
    cases returned
    exact .committed _
  | advance txOffset => exact .advanced txOffset
  | rollback => exact .rolledBack
  | replay returned =>
    cases replay_cases returned with
    | refused => exact .refused
    | written caughtUp read => exact .replayed caughtUp

theorem replayTransaction_payload {tx : ClientTx} {state : CommittedState} (fits : TxFits tx)
    (caughtUp : state.caughtUp = true) :
    (replayTransaction (payload tx)).Completes state (replayedOn tx state) := by
  have rows := replayRows_payload fits state.replicatedState
  rw [Update.Completes] at rows
  rw [Update.Completes, replayTransaction, if_pos caughtUp, rows]
  rfl

end Replay

private theorem results_payloads (txs : List ClientTx) (start : Nat) :
    (txs.mapIdx fun index tx => (⟨start + index, payload tx⟩ : TxResult)).map
      TxResult.txData = txs.map payload := by
  apply List.ext_getElem?
  intro index
  cases found : txs[index]? <;> simp [found]

section Paths
variable [BuildProfile]

def replayAll (payloads : List TxData) : Update CommittedState DatastoreError :=
  Update.forEach replayTransaction payloads

theorem replayAll_settled {txs : List ClientTx} {state : CommittedState}
    {log : List (WriteSet String String)} (fits : ∀ tx ∈ txs, TxFits tx) (settled : Settled state log) :
    ∃ after, (replayAll (txs.map payload)).Completes state after ∧
      Settled after (log ++ txs.map writeSet) := by
  induction txs generalizing state log with
  | nil => exact ⟨state, rfl, by simpa using settled⟩
  | cons tx txs ih =>
    obtain ⟨after, rest, same⟩ := ih (fun other member => fits other (List.mem_cons_of_mem _ member))
      (replayedOn_settled settled tx)
    refine ⟨after,
      (replayTransaction_payload (fits tx List.mem_cons_self) settled.caughtUp).andThen rest, ?_⟩
    simpa only [List.map_cons, List.append_assoc, List.singleton_append] using same

def advanceToLast (results : List TxResult) (state : CommittedState) : CommittedState :=
  results.getLast?.elim state fun result => state.advanceReplicatedDurabilityOffset result.txOffset

/-- Committing transactions and replaying what the commits returned give the
same views, and the same store once the leader has advanced. -/
theorem leader_path_eq_follower_path (txs : List ClientTx) (fits : ∀ tx ∈ txs, TxFits tx) :
    ∃ (results : List TxResult) (leader follower : CommittedState) (view : View String String),
      executeAll txs .new = some (results, leader) ∧
      (replayAll (results.map TxResult.txData)).Completes .new follower ∧
      (∀ key, leader.get key .memory = some (view key)) ∧
      (∀ key, (advanceToLast results leader).get key .replicated = some (view key)) ∧
      (∀ key, follower.get key .memory = some (view key) ∧ follower.get key .replicated = some (view key)) ∧
      follower.getReplicatedOffset = (advanceToLast results leader).getReplicatedOffset ∧
      follower.nextTxOffset = (advanceToLast results leader).nextTxOffset := by
  obtain ⟨tracks, length, _⟩ := settled_new.opened txs
  obtain ⟨follower, replays, same⟩ := replayAll_settled fits settled_new
  have advanced :
      Settled (advanceToLast (txs.mapIdx fun index tx => ⟨0 + index, payload tx⟩) (committedAll txs .new))
      ([] ++ txs.map writeSet) := by
    rcases List.eq_nil_or_concat txs with rfl | ⟨earlier, last, rfl⟩
    · exact settled_new
    · have settled :=
        settled_new.advance_all (earlier ++ [last]) earlier.length (by simp [CommittedState.new])
      simpa [advanceToLast] using settled
  refine ⟨_, _, follower, _, executeAll_eq sound_new txs, ?_, tracks.refines.memory, ?_, ?_, ?_, ?_⟩
  · rw [results_payloads]
    exact replays
  · exact fun key => advanced.get key .replicated
  · exact fun key => ⟨same.get key .memory, same.get key .replicated⟩
  · rw [same.eq advanced]
    rfl
  · rw [same.eq advanced]
    rfl

end Paths

theorem leader_path_eq_follower_path_overwrite : ∃ results leader follower,
    executeAll [put "a" "1", put "a" "2"] .new = some (results, leader) ∧
      (@replayAll ⟨true⟩ (results.map TxResult.txData)).Completes .new follower ∧
      follower.get "a" .memory = leader.get "a" .memory := by
  obtain ⟨results, leader, follower, view, committed, replays, memory, _, views, _⟩ :=
    @leader_path_eq_follower_path ⟨true⟩ [put "a" "1", put "a" "2"] (by decide)
  refine ⟨results, leader, follower, committed, replays, ?_⟩
  rw [(views "a").1, memory]

end OmniSpacetimeDb.Proofs.StoreReplay
