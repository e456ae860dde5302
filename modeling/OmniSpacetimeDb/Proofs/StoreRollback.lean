import OmniSpacetimeDb.Proofs.StoreRefinement

/-! A rollback leaves the store that never committed what was not replicated.
Both runs end on the same ledger, and a settled store is determined by its ledger. -/

namespace OmniSpacetimeDb.Proofs.StoreRollback
open Foundations Datastore Store StoreRefinement

/-- Every committed transaction is replicated, and no diff is left. -/
structure Settled (state : CommittedState) (log : List (WriteSet String String)) : Prop where
  next : state.nextTxOffset = log.length
  offset : state.replicatedTxOffset = lastOffset log.length
  view : ∀ key, state.replicatedState.lookup key = WriteLog.replay log WriteLog.empty key
  drained : state.committedDiff = ∅

section Settled
variable {state other : CommittedState} {log : List (WriteSet String String)}

theorem settled_new : Settled .new [] := ⟨rfl, rfl, fun _ => rfl, rfl⟩

theorem Settled.sound (settled : Settled state log) : Sound state := by
  intro key txDiff found
  rw [settled.drained] at found
  cases found

theorem Settled.history (settled : Settled state log) (key : String) : historyOf state key = [] := by
  rw [historyOf, settled.drained]
  rfl

theorem Settled.tracks (settled : Settled state log) : Tracks state (.settled log) := by
  refine ⟨⟨settled.next, settled.offset, ?_, settled.sound⟩, ?_⟩
  · intro key
    rw [settled.view, Ledger.stable_settled]
  · intro key
    rw [settled.history, Ledger.unstable_settled]
    rfl

theorem settled_of_tracks (tracks : Tracks state (.settled log)) : Settled state log := by
  refine ⟨tracks.next, tracks.offset, ?_, ?_⟩
  · intro key
    rw [tracks.stable, Ledger.stable_settled]
  · apply tracks.sound.empty
    intro key
    have none := tracks.unstable key
    rw [Ledger.unstable_settled] at none
    exact List.map_eq_nil_iff.mp none

theorem Settled.eq (settled : Settled state log) (same : Settled other log) : state = other := by
  apply CommittedState.ext
  · rw [settled.next, same.next]
  · rw [settled.offset, same.offset]
  · apply Finmap.ext_lookup
    intro key
    rw [settled.view, same.view]
  · rw [settled.drained, same.drained]

theorem Settled.get (settled : Settled state log) (key : String) (level : DurabilityLevel) :
    state.get key level = some (WriteLog.replay log WriteLog.empty key) := by
  cases level <;> simp only [CommittedState.get, settled.drained, Finmap.lookup_empty, settled.view]

theorem Settled.getCurOffset_eq (settled : Settled state log) :
    state.getCurOffset = state.getReplicatedOffset := by
  rw [CommittedState.getCurOffset, CommittedState.getReplicatedOffset, settled.next, settled.offset]
  cases log.length <;> rfl

theorem Settled.caughtUp (settled : Settled state log) : state.caughtUp = true := by
  rw [CommittedState.caughtUp, settled.next, settled.offset]
  cases log.length <;> simp [lastOffset]

theorem Settled.next_eq (settled : Settled state log) :
    state.nextTxOffset = state.replicatedTxOffset.elim 0 fun replicated => replicated + 1 := by
  rw [settled.next, settled.offset]
  cases log.length <;> rfl

end Settled

theorem commitAll_tracks {state : CommittedState} {ledger : Ledger String String}
    (tracks : Tracks state ledger) (txs : List ClientTx) :
    Tracks (committedAll txs state) (ledger.commitAll (txs.map writeSet)) := by
  induction txs generalizing state ledger with
  | nil =>
    rw [List.map_nil, Ledger.commitAll_nil]
    exact tracks
  | cons tx txs ih =>
    rw [List.map_cons, Ledger.commitAll_cons]
    exact ih (tracks.commit tx)

section Opened
variable {state : CommittedState} {log : List (WriteSet String String)}

theorem Settled.opened (settled : Settled state log) (txs : List ClientTx) :
    Tracks (committedAll txs state) ((Ledger.settled log).commitAll (txs.map writeSet)) ∧
      ((Ledger.settled log).commitAll (txs.map writeSet)).log.length = state.nextTxOffset + txs.length ∧
      ((Ledger.settled log).commitAll (txs.map writeSet)).replicated = state.nextTxOffset := by
  refine ⟨commitAll_tracks settled.tracks txs, ?_, ?_⟩
  · rw [Ledger.commitAll, List.length_append, List.length_map, settled.next]
    rfl
  · rw [Ledger.commitAll, settled.next]
    rfl

theorem Settled.advance_all (settled : Settled state log) (txs : List ClientTx) (txOffset : Nat)
    (last : txOffset + 1 = state.nextTxOffset + txs.length) :
    Settled ((committedAll txs state).advanceReplicatedDurabilityOffset txOffset)
      (log ++ txs.map writeSet) := by
  obtain ⟨tracks, length, floor⟩ := settled.opened txs
  rw [← last] at length
  have within := Nat.le_of_eq length.symm
  have ordered : ((Ledger.settled log).commitAll (txs.map writeSet)).replicated ≤ txOffset + 1 := by omega
  have same : ((Ledger.settled log).commitAll (txs.map writeSet)).advance (txOffset + 1) within =
      .settled (log ++ txs.map writeSet) := Ledger.ext rfl length.symm
  have advanced := tracks.advance_clear within ordered (tracks.clear (Nat.le_of_eq length))
  rw [same] at advanced
  exact settled_of_tracks advanced

end Opened

/-- Transactions that are committed, of which at most one is advanced to before
the rollback. -/
structure Round where
  txs : List ClientTx
  advanced : Option (Fin txs.length)

def Round.run (state : CommittedState) (round : Round) : Panics CommittedState := do
  let (results, state) ← executeAll round.txs state
  match round.advanced with
  | none => return state.rollbackToReplicatedDurabilityOffset
  | some index =>
    let result ← results[index]?
    return (state.advanceReplicatedDurabilityOffset result.txOffset).rollbackToReplicatedDurabilityOffset

/-- The same round on a store that never commits what would be rolled back. -/
def Round.reference (state : CommittedState) (round : Round) : Panics CommittedState :=
  match round.advanced with
  | none => return state
  | some index => do
    let (results, state) ← executeAll (round.txs.take (index + 1)) state
    let result ← results.getLast?
    return state.advanceReplicatedDurabilityOffset result.txOffset

def Round.kept (round : Round) : List ClientTx :=
  round.advanced.elim [] fun index => round.txs.take (index + 1)

section Rounds
variable {state : CommittedState} {log : List (WriteSet String String)}

theorem run_settled (settled : Settled state log) (round : Round) :
    ∃ after, round.run state = some after ∧ Settled after (log ++ round.kept.map writeSet) := by
  obtain ⟨txs, advanced⟩ := round
  obtain ⟨tracks, length, floor⟩ := settled.opened txs
  simp only [Round.run, executeAll_eq settled.sound, Option.bind_eq_bind, Option.bind_some]
  cases advanced with
  | none =>
    refine ⟨_, rfl, ?_⟩
    have same : ((Ledger.settled log).commitAll (txs.map writeSet)).truncate = .settled log := by
      apply Ledger.ext <;> simp [Ledger.truncate, Ledger.commitAll, Ledger.settled]
    have rolled := tracks.rollback
    rw [same] at rolled
    simpa only [Round.kept, Option.elim_none, List.map_nil, List.append_nil] using settled_of_tracks rolled
  | some index =>
    have inside := index.isLt
    have within : state.nextTxOffset + index + 1 ≤
        ((Ledger.settled log).commitAll (txs.map writeSet)).log.length := by omega
    have ordered : ((Ledger.settled log).commitAll (txs.map writeSet)).replicated ≤
        state.nextTxOffset + index + 1 := by omega
    have same : (((Ledger.settled log).commitAll (txs.map writeSet)).advance
        (state.nextTxOffset + index + 1) within).truncate =
        .settled (log ++ (txs.take (index + 1)).map writeSet) := by
      apply Ledger.ext
      · simp [Ledger.truncate, Ledger.advance, Ledger.commitAll, Ledger.settled, settled.next,
          List.take_append, List.map_take,
          Nat.add_assoc, List.take_of_length_le]
      · simp only [Ledger.truncate, Ledger.advance, Ledger.settled, settled.next,
          List.length_append, List.length_map,
          List.length_take]
        omega
    have rolled := (tracks.advance within ordered).rollback
    rw [same] at rolled
    refine ⟨_, ?_, settled_of_tracks rolled⟩
    simp [inside]

theorem reference_settled (settled : Settled state log) (round : Round) :
    ∃ after, round.reference state = some after ∧ Settled after (log ++ round.kept.map writeSet) := by
  obtain ⟨txs, advanced⟩ := round
  cases advanced with
  | none =>
    refine ⟨state, rfl, ?_⟩
    simpa only [Round.kept, Option.elim_none, List.map_nil, List.append_nil] using settled
  | some index =>
    have inside := index.isLt
    have kept : (txs.take (index + 1)).length = index + 1 := by
      rw [List.length_take]
      omega
    refine ⟨_, ?_, settled.advance_all (txs.take (index + 1)) _ (by rw [kept, Nat.add_assoc])⟩
    have last : ((txs.take (index + 1)).mapIdx fun position tx =>
        (⟨state.nextTxOffset + position, payload tx⟩ : TxResult)).getLast? =
        some ⟨state.nextTxOffset + index, payload txs[index]⟩ := by
      rw [List.getLast?_eq_getElem?, List.length_mapIdx, kept, Nat.add_sub_cancel, List.getElem?_mapIdx]
      simp [inside]
    simp only [Round.reference, executeAll_eq settled.sound, Option.bind_eq_bind, Option.bind_some, last]
    rfl

theorem rounds_settled (rounds : List Round) (settled : Settled state log) :
    ∃ after log, rounds.foldlM Round.run state = some after ∧
      rounds.foldlM Round.reference state = some after ∧
      Settled after log := by
  induction rounds generalizing state log with
  | nil => exact ⟨state, log, rfl, rfl, settled⟩
  | cons round rounds ih =>
    obtain ⟨after, ran, same⟩ := run_settled settled round
    obtain ⟨kept, refers, equal⟩ := reference_settled settled round
    obtain rfl := same.eq equal
    obtain ⟨last, log, rest⟩ := ih same
    refine ⟨last, log, ?_⟩
    simpa only [List.foldlM_cons, ran, refers, Option.bind_eq_bind, Option.bind_some] using rest

end Rounds

/-- After any rounds the whole state is that of the store that committed only
what survived, and the next commit takes the first offset that is free again. -/
theorem rollback_is_truncation (rounds : List Round) : ∃ state,
    rounds.foldlM Round.run .new = some state ∧ rounds.foldlM Round.reference .new = some state ∧
    state.committedDiff = ∅ ∧ state.getCurOffset = state.getReplicatedOffset ∧
    ∀ tx : ClientTx, ∃ txData after,
      tx.execute state =
        some (⟨state.getReplicatedOffset.elim 0 fun replicated => replicated + 1, txData⟩, after) := by
  obtain ⟨state, log, ran, refers, settled⟩ := rounds_settled rounds settled_new
  refine ⟨state, ran, refers, settled.drained, settled.getCurOffset_eq, ?_⟩
  intro tx
  refine ⟨payload tx, committed tx state, ?_⟩
  rw [execute_eq settled.sound, CommittedState.getReplicatedOffset, ← settled.next_eq]

end OmniSpacetimeDb.Proofs.StoreRollback
