import OmniSpacetimeDb.Proofs.StoreReplay

/-! Which payloads a replay fails on, and what it has changed by then. The
counters move before the first row is read, so a row that cannot be read leaves
its mark; only the guard at the top refuses without one. -/

namespace OmniSpacetimeDb.Proofs.ReplayErrors
open Foundations Datastore Store StoreReplay

structure OneTable (data : TxData) : Prop where
  inserts : ∀ list ∈ data.inserts, list.tableId = 0
  deletes : ∀ list ∈ data.deletes, list.tableId = 0

section
variable [BuildProfile]

/-- Reading in order, some row fails to decode: an insert after rows that decode,
or a delete after inserts that all decode. -/
inductive Unreadable (data : TxData) : Prop
  | insert {before : List RowData} {row : RowData} {after : List RowData} {error : ReadError}
      (rows : data.inserts.flatMap InsertList.inserts = before ++ row :: after)
      (readable : ∀ earlier ∈ before, ∃ value, deserializeExampleRow earlier.bytes = .ok value)
      (fails : deserializeExampleRow row.bytes = .error error) (returns : error ≠ .shiftOverflow) :
      Unreadable data
  | delete {row : RowData}
      (readable : ∀ earlier ∈ data.inserts.flatMap InsertList.inserts, ∃ value,
        deserializeExampleRow earlier.bytes = .ok value)
      (member : row ∈ data.deletes.flatMap DeleteList.deletes) (fails : fromUtf8 row.bytes = none) :
      Unreadable data

def insertOutcome (insert : RowData) : Option (Except DatastoreError Unit) :=
  match deserializeExampleRow insert.bytes with
  | .ok _ => some (.ok ())
  | .error .shiftOverflow => none
  | .error _ => some (.error .insertDeserializationError)

omit [BuildProfile] in
def deleteOutcome (delete : RowData) : Option (Except DatastoreError Unit) :=
  if (fromUtf8 delete.bytes).isSome then some (.ok ()) else some (.error .deleteDeserializationError)

theorem replayInsert_yields (insert : RowData) : (replayInsert insert).Yields (insertOutcome insert) := by
  intro replicated
  simp only [replayInsert, insertOutcome]
  rcases deserializeExampleRow insert.bytes with (_ | _ | _) | _ <;> rfl

omit [BuildProfile] in
theorem replayDelete_yields (delete : RowData) : (replayDelete delete).Yields (deleteOutcome delete) := by
  intro replicated
  simp only [replayDelete, deleteOutcome]
  cases fromUtf8 delete.bytes <;> rfl

/-- Whether a replay fails is decided by its rows, not by the map they are written to. -/
theorem replayRows_yields {data : TxData} (table : OneTable data) : (replayRows data).Yields
    (Update.followedBy (Update.firstStop insertOutcome (data.inserts.flatMap InsertList.inserts))
      (Update.firstStop deleteOutcome (data.deletes.flatMap DeleteList.deletes))) := by
  rw [← Update.firstStop_flatMap, ← Update.firstStop_flatMap]
  apply Update.Yields.andThen
  · apply Update.Yields.forEach
    intro list member
    rw [if_pos (table.inserts list member)]
    exact Update.Yields.forEach fun row _ => replayInsert_yields row
  · apply Update.Yields.forEach
    intro list member
    rw [if_pos (table.deletes list member)]
    exact Update.Yields.forEach fun row _ => replayDelete_yields row

theorem insertOutcome_ok_iff (row : RowData) :
    insertOutcome row = some (.ok ()) ↔ ∃ value, deserializeExampleRow row.bytes = .ok value := by
  rw [insertOutcome]
  rcases deserializeExampleRow row.bytes with (_ | _ | _) | _ <;> simp

theorem insertOutcome_error_iff (row : RowData) : (∃ error, insertOutcome row = some (.error error)) ↔
    ∃ error, deserializeExampleRow row.bytes = .error error ∧ error ≠ .shiftOverflow := by
  rw [insertOutcome]
  rcases deserializeExampleRow row.bytes with (_ | _ | _) | _ <;> simp

omit [BuildProfile] in
theorem deleteOutcome_error_iff (row : RowData) :
    (∃ error, deleteOutcome row = some (.error error)) ↔ fromUtf8 row.bytes = none := by
  rw [deleteOutcome]
  cases fromUtf8 row.bytes <;> simp

omit [BuildProfile] in
private theorem deletes_return (rows : List RowData) : Update.firstStop deleteOutcome rows ≠ none := by
  induction rows with
  | nil => exact Option.some_ne_none _
  | cons row rows ih =>
    rw [Update.firstStop, deleteOutcome]
    split
    · exact ih
    · exact Option.some_ne_none _

omit [BuildProfile] in
theorem deletes_fail_iff (rows : List RowData) :
    (∃ error, Update.firstStop deleteOutcome rows = some (.error error)) ↔
      ∃ row ∈ rows, fromUtf8 row.bytes = none := by
  constructor
  · rintro ⟨error, stops⟩
    obtain ⟨before, row, after, rfl, _, fails⟩ := Update.firstStop_error_iff.mp stops
    exact ⟨row, by simp, (deleteOutcome_error_iff row).mp ⟨error, fails⟩⟩
  · rintro ⟨row, member, fails⟩
    obtain ⟨error, outcome⟩ := (deleteOutcome_error_iff row).mpr fails
    cases stops : Update.firstStop deleteOutcome rows with
    | none => exact absurd stops (deletes_return rows)
    | some result =>
      cases result with
      | error first => exact ⟨first, rfl⟩
      | ok =>
        have passes := Update.firstStop_ok_iff.mp stops row member
        rw [outcome] at passes
        cases passes

theorem unreadable_iff {data : TxData} (table : OneTable data) (replicated : HashMap String String) :
    Unreadable data ↔ ∃ rows error, replayRows data replicated = some (rows, .error error) := by
  rw [(replayRows_yields table).error_iff]
  simp only [Update.followedBy_error_iff, exists_or, exists_and_left, deletes_fail_iff,
    Update.firstStop_ok_iff, insertOutcome_ok_iff]
  constructor
  · rintro (⟨rows, readable, fails, returns⟩ | ⟨readable, member, fails⟩)
    · obtain ⟨error, outcome⟩ := (insertOutcome_error_iff _).mpr ⟨_, fails, returns⟩
      refine .inl ⟨error, Update.firstStop_error_iff.mpr ⟨_, _, _, rows, ?_, outcome⟩⟩
      exact fun earlier inside => (insertOutcome_ok_iff earlier).mpr (readable earlier inside)
    · exact .inr ⟨readable, _, member, fails⟩
  · rintro (⟨error, stops⟩ | ⟨readable, row, member, fails⟩)
    · obtain ⟨before, row, after, rows, pass, outcome⟩ := Update.firstStop_error_iff.mp stops
      obtain ⟨error, fails, returns⟩ := (insertOutcome_error_iff row).mp ⟨error, outcome⟩
      exact .insert rows (fun earlier inside => (insertOutcome_ok_iff earlier).mp (pass earlier inside))
        fails returns
    · exact .delete readable member fails

/-- An error of a replay leaves the store as it was exactly where the guard
refuses the replay, or no row of the payload fails to decode. -/
theorem failed_replay_unchanged_iff {data : TxData} (table : OneTable data) (state : CommittedState) :
    (∀ after error, replayTransaction data state = some (after, .error error) → after = state) ↔
      state.caughtUp = false ∨ ¬ Unreadable data := by
  constructor
  · intro unchanged
    rw [Classical.or_iff_not_imp_left, Bool.not_eq_false]
    intro caughtUp unreadable
    obtain ⟨rows, error, read⟩ := (unreadable_iff table state.replicatedState).mp unreadable
    have same := unchanged _ error (by rw [replayTransaction, if_pos caughtUp, read]; rfl)
    exact Nat.succ_ne_self _ (congrArg CommittedState.nextTxOffset same)
  · intro allowed after error replayed
    cases replay_cases replayed with
    | refused => rfl
    | written caughtUp read =>
      rcases allowed with behind | readable
      · rw [caughtUp] at behind
        cases behind
      · exact absurd ((unreadable_iff table state.replicatedState).mpr ⟨_, _, read⟩) readable

end

def truncated : TxData := ⟨[⟨0, [⟨serializeExampleRow ⟨"a", "1"⟩⟩, ⟨[]⟩]⟩], [], []⟩

theorem failed_replay_unchanged_iff_behind : ∃ error,
    @replayTransaction ⟨true⟩ truncated (committed (put "b" "2") .new) =
      some (committed (put "b" "2") .new, .error error) := by
  let : BuildProfile := ⟨true⟩
  obtain ⟨after, refused⟩ : ∃ after, replayTransaction truncated (committed (put "b" "2") .new) =
      some (after, .error .invalidDurabilityOffset) := ⟨_, rfl⟩
  have same := (failed_replay_unchanged_iff ⟨by decide, by decide⟩ _).mpr (.inl rfl) after _ refused
  exact ⟨_, same ▸ refused⟩

/-- The first row stays, and both counters have moved. -/
theorem failed_replay_changes_store : ∃ after,
    @replayTransaction ⟨true⟩ truncated .new = some (after, .error .insertDeserializationError) ∧
    after.get "a" .replicated = some (some "1") ∧ CommittedState.new.get "a" .replicated = some none ∧
    after.getReplicatedOffset = some 0 ∧ after.nextTxOffset = 1 := by
  exact ⟨_, rfl, rfl, rfl, rfl, rfl⟩

end OmniSpacetimeDb.Proofs.ReplayErrors
