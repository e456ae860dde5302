import OmniSpacetimeDb.Datastore.ExampleDatastore
import OmniSpacetimeDb.Foundations.WriteLog

/-! What each operation of the store does to one key. Later proofs use these
facts and never look into the loops over the hash maps. -/

namespace OmniSpacetimeDb.Proofs.Store
open Foundations Datastore

/-- The history of a key, empty when the diff map has no entry for it. -/
def historyOf (state : CommittedState) (key : String) : List (Nat × Diff) :=
  (state.committedDiff.lookup key).elim [] TxDiff.history

/-- No entry of the diff map holds an empty history, so `get_latest` never panics. -/
def Sound (state : CommittedState) : Prop :=
  ∀ key txDiff, state.committedDiff.lookup key = some txDiff → txDiff.history ≠ []

theorem sound_of_drained {state : CommittedState} (drained : state.committedDiff = ∅) : Sound state := by
  intro key txDiff found
  rw [drained] at found
  cases found

theorem sound_new : Sound .new := sound_of_drained rfl

theorem Sound.lookup {state : CommittedState} (sound : Sound state) (key : String) :
    state.committedDiff.lookup key =
      if historyOf state key = [] then none else some ⟨historyOf state key⟩ := by
  cases found : state.committedDiff.lookup key with
  | none => simp [historyOf, found]
  | some txDiff => simp [historyOf, found, sound key txDiff found]

theorem Sound.empty {state : CommittedState} (sound : Sound state)
    (drained : ∀ key, historyOf state key = []) :
    state.committedDiff = ∅ := by
  apply Finmap.ext_lookup
  intro key
  rw [sound.lookup, if_pos (drained key), Finmap.lookup_empty]

theorem Sound.drained_iff {state : CommittedState} (sound : Sound state) :
    state.committedDiff = ∅ ↔ ∀ key, historyOf state key = [] := by
  refine ⟨?_, sound.empty⟩
  intro drained key
  rw [historyOf, drained]
  rfl

theorem get_replicated (state : CommittedState) (key : String) :
    state.get key .replicated = some (state.replicatedState.lookup key) := by
  unfold CommittedState.get
  cases state.committedDiff.lookup key <;> rfl

theorem get_memory {state : CommittedState} (sound : Sound state) (key : String) : state.get key .memory =
    some (((historyOf state key).getLast?.map fun entry => entry.2.value).getD
      (state.replicatedState.lookup key)) := by
  cases found : state.committedDiff.lookup key with
  | none => simp [CommittedState.get, historyOf, found]
  | some txDiff =>
    obtain ⟨entry, last⟩ :=
      Option.ne_none_iff_exists'.mp (mt List.getLast?_eq_none_iff.mp (sound key txDiff found))
    simp [CommittedState.get, historyOf, found, TxDiff.getLatest, last]

section Advance
variable (state : CommittedState) (txOffset : Nat)

private def visited : HashMap String String × HashMap String TxDiff :=
  state.committedDiff.visit (advanceEntry txOffset) (advanceEntry_commuting txOffset)
    (state.replicatedState, state.committedDiff)

private theorem advanceEntry_local : HashMap.Local (advanceEntry txOffset)
    (fun key loop => (loop.1.lookup key, loop.2.lookup key))
    (fun _ txDiff seen => (((txDiff.history.takeWhile fun entry => decide (entry.1 ≤ txOffset)).getLast?.map
      fun entry => entry.2.value).getD seen.1,
        some ⟨(txDiff.history.dropWhile fun entry => decide (entry.1 ≤ txOffset)).tail⟩)) where
  here loop key txDiff := by
    simp only [advanceEntry, drain_here, drain_history, Finmap.lookup_insert]
  elsewhere loop key txDiff other different := by
    simp only [advanceEntry, drain_elsewhere _ _ _ _ different, Finmap.lookup_insert_of_ne _ different]

private theorem visited_lookup (key : String) :
    ((visited state txOffset).1.lookup key, (visited state txOffset).2.lookup key) =
      ((((historyOf state key).takeWhile fun entry => decide (entry.1 ≤ txOffset)).getLast?.map
        fun entry => entry.2.value).getD (state.replicatedState.lookup key),
      (state.committedDiff.lookup key).map fun txDiff =>
        ⟨(txDiff.history.dropWhile fun entry => decide (entry.1 ≤ txOffset)).tail⟩) := by
  rw [visited, (advanceEntry_local txOffset).visit]
  cases found : state.committedDiff.lookup key <;> simp [historyOf, found]

theorem advance_replicatedState (key : String) :
    (state.advanceReplicatedDurabilityOffset txOffset).replicatedState.lookup key =
    (((historyOf state key).takeWhile fun entry => decide (entry.1 ≤ txOffset)).getLast?.map
      fun entry => entry.2.value).getD
      (state.replicatedState.lookup key) :=
  congrArg Prod.fst (visited_lookup state txOffset key)

private theorem advance_lookup (key : String) :
    (state.advanceReplicatedDurabilityOffset txOffset).committedDiff.lookup key =
    ((state.committedDiff.lookup key).map fun txDiff =>
      (⟨(txDiff.history.dropWhile fun entry => decide (entry.1 ≤ txOffset)).tail⟩ : TxDiff)).filter
        fun txDiff => !txDiff.history.isEmpty := by
  have leftover := congrArg Prod.snd (visited_lookup state txOffset key)
  exact (HashMap.lookup_retain _ _ key).trans
    (congrArg (Option.filter fun txDiff => !txDiff.history.isEmpty) leftover)

/-- Beyond the cut each key loses the oldest write it still had. -/
theorem advance_history (key : String) : historyOf (state.advanceReplicatedDurabilityOffset txOffset) key =
    ((historyOf state key).dropWhile fun entry => decide (entry.1 ≤ txOffset)).tail := by
  rw [historyOf, advance_lookup, historyOf]
  cases state.committedDiff.lookup key with
  | none => rfl
  | some txDiff =>
    simp only [Option.map_some, Option.elim_some, Option.filter]
    split
    · rfl
    next drained => simpa using (by simpa using drained : _ = []).symm

theorem sound_advance : Sound (state.advanceReplicatedDurabilityOffset txOffset) := by
  intro key txDiff found
  rw [advance_lookup, Option.filter_eq_some_iff] at found
  simpa using found.2

@[simp] theorem advance_next :
    (state.advanceReplicatedDurabilityOffset txOffset).nextTxOffset = state.nextTxOffset :=
  rfl

@[simp] theorem advance_offset :
    (state.advanceReplicatedDurabilityOffset txOffset).replicatedTxOffset = some txOffset :=
  rfl

end Advance

theorem sound_rollback (state : CommittedState) : Sound state.rollbackToReplicatedDurabilityOffset := by
  intro key txDiff found
  cases found

@[simp] theorem rollback_history (state : CommittedState) (key : String) :
    historyOf state.rollbackToReplicatedDurabilityOffset key = [] := rfl

section Commit

theorem run_eq (tx : MutTx) (sound : Sound tx.committedState) (calls : List Call) :
    tx.run calls = some { tx with diff := calls.foldl Call.write tx.diff } := by
  induction calls generalizing tx with
  | nil => rfl
  | cons call calls ih =>
    have step : tx.call call = some { tx with diff := call.write tx.diff } := by
      cases call with
      | get key =>
        simp only [MutTx.call, MutTx.get, get_memory sound, Call.write]
        cases tx.diff.lookup key <;> rfl
      | set key value => rfl
      | delete key =>
        simp only [MutTx.call, MutTx.delete, get_memory sound, Call.write]
        cases tx.diff.lookup key <;> rfl
    simp only [MutTx.run, List.foldlM_cons, step] at ih ⊢
    exact ih _ sound

/-- The rows that a commit sends for the set keys and for the deleted keys. -/
def insertsOf (entries : List (Sigma fun _ : String => Diff)) : List ExampleRow :=
  entries.filterMap fun entry => entry.2.value.map fun value => ⟨entry.1, value⟩

def deletesOf (entries : List (Sigma fun _ : String => Diff)) : List String :=
  (entries.filter fun entry => entry.2.value.isNone).map Sigma.fst

def payload (tx : ClientTx) : TxData := txDataOf (insertsOf tx.order.entries) (deletesOf tx.order.entries)

def writeSet (tx : ClientTx) : WriteSet String String :=
  fun key => ((writes tx.calls).lookup key).map Diff.value

def committed (tx : ClientTx) (state : CommittedState) : CommittedState :=
  (commitMutTx ⟨writes tx.calls, state⟩ tx.order).2

private theorem commit_rows (offset : Nat) (entries : List (Sigma fun _ : String => Diff))
    (loop : HashMap String TxDiff × List ExampleRow × List String) :
    (entries.foldl (fun loop entry => commitEntry offset loop entry.1 entry.2) loop).2 =
      (loop.2.1 ++ insertsOf entries, loop.2.2 ++ deletesOf entries) := by
  induction entries generalizing loop with
  | nil => simp [insertsOf, deletesOf]
  | cons entry entries ih =>
    obtain ⟨key, diff⟩ := entry
    rw [List.foldl_cons, ih]
    cases diff <;> simp [commitEntry, insertsOf, deletesOf, Diff.value]

theorem commit_eq (tx : ClientTx) (state : CommittedState) :
    commitMutTx ⟨writes tx.calls, state⟩ tx.order =
      (⟨state.nextTxOffset, payload tx⟩, committed tx state) := by
  have rows := commit_rows state.nextTxOffset tx.order.entries (state.committedDiff, [], [])
  simp only [List.nil_append] at rows
  simp only [committed, payload, commitMutTx, rows]

theorem execute_eq {state : CommittedState} (sound : Sound state) (tx : ClientTx) :
    tx.execute state = some (⟨state.nextTxOffset, payload tx⟩, committed tx state) := by
  have opened : state.beginMutTx.run tx.calls = some ⟨writes tx.calls, state⟩ :=
    run_eq state.beginMutTx sound tx.calls
  simp only [ClientTx.execute, opened, Option.bind_eq_bind, Option.bind_some, commit_eq]
  rfl

private theorem commitEntry_local (offset : Nat) :
    HashMap.Local (commitEntry offset) (fun key loop => loop.1.lookup key)
    (fun _ diff txDiff => some ((txDiff.getD ⟨[]⟩).insertDiff offset diff)) where
  here loop key diff := by
    cases found : loop.1.lookup key <;> cases diff <;> simp [commitEntry, found]
  elsewhere loop key diff other different := by
    cases diff <;> simp only [commitEntry, Finmap.lookup_insert_of_ne _ different]

private theorem committed_lookup (tx : ClientTx) (state : CommittedState) (key : String) :
    (committed tx state).committedDiff.lookup key =
      ((writes tx.calls).lookup key).elim (state.committedDiff.lookup key) fun diff =>
        some (((state.committedDiff.lookup key).getD ⟨[]⟩).insertDiff state.nextTxOffset diff) := by
  rw [← tx.visits, Finmap.lookup_toFinmap]
  exact (commitEntry_local state.nextTxOffset).foldl tx.order.entries tx.order.nodupKeys
    (state.committedDiff, [], []) key

theorem committed_history (tx : ClientTx) (state : CommittedState) (key : String) :
    historyOf (committed tx state) key =
    historyOf state key ++ ((writes tx.calls).lookup key).toList.map (state.nextTxOffset, ·) := by
  rw [historyOf, committed_lookup, historyOf]
  cases (writes tx.calls).lookup key <;> cases state.committedDiff.lookup key <;> simp [TxDiff.insertDiff]

theorem sound_committed {state : CommittedState} (sound : Sound state) (tx : ClientTx) :
    Sound (committed tx state) := by
  intro key txDiff found
  rw [committed_lookup] at found
  cases written : (writes tx.calls).lookup key with
  | none =>
    rw [written] at found
    exact sound key txDiff found
  | some diff =>
    rw [written] at found
    cases found
    simp [TxDiff.insertDiff]

/-- A commit leaves diffs behind unless it has no writes. -/
theorem committed_drained_iff {state : CommittedState} (sound : Sound state) (tx : ClientTx) :
    (committed tx state).committedDiff = ∅ ↔ writes tx.calls = ∅ ∧ state.committedDiff = ∅ := by
  rw [(sound_committed sound tx).drained_iff, sound.drained_iff]
  simp only [committed_history, List.append_eq_nil_iff, List.map_eq_nil_iff, Option.toList_eq_nil_iff]
  constructor
  · intro drained
    refine ⟨?_, fun key => (drained key).1⟩
    apply Finmap.ext_lookup
    intro key
    rw [(drained key).2, Finmap.lookup_empty]
  · rintro ⟨unwritten, drained⟩ key
    exact ⟨drained key, by rw [unwritten, Finmap.lookup_empty]⟩

@[simp] theorem committed_next (tx : ClientTx) (state : CommittedState) :
    (committed tx state).nextTxOffset = state.nextTxOffset + 1 := rfl

@[simp] theorem committed_offset (tx : ClientTx) (state : CommittedState) :
    (committed tx state).replicatedTxOffset = state.replicatedTxOffset := rfl

@[simp] theorem committed_replicated (tx : ClientTx) (state : CommittedState) :
    (committed tx state).replicatedState = state.replicatedState := rfl

def committedAll (txs : List ClientTx) (state : CommittedState) : CommittedState :=
  txs.foldl (fun state tx => committed tx state) state

theorem executeAll_eq {state : CommittedState} (sound : Sound state) (txs : List ClientTx) :
    executeAll txs state =
    some (txs.mapIdx fun index tx => ⟨state.nextTxOffset + index, payload tx⟩, committedAll txs state) := by
  induction txs generalizing state with
  | nil => rfl
  | cons tx txs ih =>
    simp only [executeAll, execute_eq sound, ih (sound_committed sound tx), Option.bind_eq_bind,
      Option.bind_some, List.mapIdx_cons,
      committed_next, committedAll, List.foldl_cons, Nat.add_zero, Nat.add_right_comm, ← Nat.add_assoc]
    rfl

def put (key value : String) : ClientTx := ⟨[.set key value], AList.insert key (.insert value) ∅, rfl⟩

end Commit

end OmniSpacetimeDb.Proofs.Store
