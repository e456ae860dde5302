import OmniSpacetimeDb.Proofs.LogRecovery
import OmniSpacetimeDb.Proofs.StoreReplay

/-! A store that starts again from a log file. What a crash has left of the file is
replayed from the start, as the trait of the datastore asks at initialisation. -/

namespace OmniSpacetimeDb.Proofs.CrashRecovery
open Foundations Datastore Store StoreRefinement StoreRollback StoreReplay LogRecovery
  Durability.ExampleDurability

def logEntry (result : TxResult) : LogEntry := ⟨UInt64.ofNat result.txOffset, result.txData⟩

/-- The file to which the results of these commits were appended, one after another. -/
def logFile (results : List TxResult) : List UInt8 := (results.map logEntry).flatMap LogEntry.serialize

/-- Every length in the transaction survives its cast to `u32`. -/
structure Stored (tx : ClientTx) : Prop where
  calls : TxFits tx
  payload : LogRecovery.Fits (payload tx)

def recover [BuildProfile] (file : LogFile) (calls : Nat) :
    Panics (CommittedState × Except DatastoreError Unit) := do
  let items ← iter file calls
  replayAll ((items.filterMap id).map Prod.snd) .new

/-- What commits on a store that has already given out this many offsets return. -/
def resultsFrom (start : Nat) (txs : List ClientTx) : List TxResult :=
  txs.mapIdx fun index tx => ⟨start + index, payload tx⟩

section Results
variable (start count : Nat) (txs : List ClientTx)

@[simp] theorem resultsFrom_length : (resultsFrom start txs).length = txs.length := List.length_mapIdx

theorem resultsFrom_take : (resultsFrom start txs).take count = resultsFrom start (txs.take count) := by
  apply List.ext_getElem?
  intro position
  simp only [resultsFrom, List.getElem?_take, List.getElem?_mapIdx]
  split <;> rfl

theorem resultsFrom_drop :
    (resultsFrom start txs).drop count = resultsFrom (start + count) (txs.drop count) := by
  apply List.ext_getElem?
  intro position
  simp only [resultsFrom, List.getElem?_drop, List.getElem?_mapIdx, Nat.add_assoc]

theorem resultsFrom_txData : (resultsFrom start txs).map TxResult.txData = txs.map payload := by
  apply List.ext_getElem?
  intro position
  simp only [resultsFrom, List.getElem?_map, List.getElem?_mapIdx, Option.map_map]
  rfl

end Results

theorem advanceToLast_settled (txs : List ClientTx) :
    Settled (advanceToLast (resultsFrom 0 txs) (committedAll txs .new)) (txs.map writeSet) := by
  rcases List.eq_nil_or_concat txs with rfl | ⟨earlier, last, rfl⟩
  · exact settled_new
  · have settled :=
      settled_new.advance_all (earlier ++ [last]) earlier.length (by simp [CommittedState.new])
    simpa [advanceToLast, resultsFrom] using settled

theorem recover_replays [BuildProfile] {entries : List LogEntry} {file : List UInt8} {calls : Nat}
    (yields : Yields file entries) (enough : entries.length ≤ calls) :
    recover (some file) calls = replayAll (entries.map LogEntry.txData) .new := by
  have items : iter (some file) calls =
      some (entries.map item ++ List.replicate (calls - entries.length) none) := by
    have taken := yields calls
    rw [List.take_of_length_le (by rw [List.length_map]; exact enough)] at taken
    exact taken
  have nothing : (List.replicate (calls - entries.length) (none : Option (UInt64 × TxData))).filterMap
      id = [] := by simp
  have read : (entries.map item).filterMap id = entries.map fun entry =>
      (entry.txOffset, entry.txData) := by
    rw [List.filterMap_map]
    exact congrFun List.filterMap_eq_map entries
  simp only [recover, items, Option.bind_eq_bind, Option.bind_some, List.filterMap_append, nothing,
    read, List.append_nil, List.map_map]
  rfl

section Crash
variable {txs : List ClientTx} (stored : ∀ tx ∈ txs, Stored tx)
include stored

theorem logFile_fits {entry : LogEntry} (member : entry ∈ (resultsFrom 0 txs).map logEntry) :
    LogRecovery.Fits entry.txData := by
  obtain ⟨result, inside, rfl⟩ := List.mem_map.mp member
  have made : result.txData ∈ txs.map payload :=
    resultsFrom_txData 0 txs ▸ List.mem_map.mpr ⟨result, inside, rfl⟩
  obtain ⟨tx, known, same⟩ := List.mem_map.mp made
  have fits := (stored tx known).payload
  rw [same] at fits
  exact fits

variable [BuildProfile]

/-- Wherever a crash cuts the file, the store that is recovered from it is the
store after the commits whose entries are whole, all of them replicated; and the
commits that were lost lead from there to the view before the crash. -/
theorem crash_loses_a_suffix (cut : Nat) :
    ∃ results leader, executeAll txs .new = some (results, leader) ∧ ∃ count ≤ txs.length,
    (∀ position ≤ txs.length, position ≤ count ↔ (logFile (results.take position)).length ≤ cut) ∧
      ∃ earlier recovered again,
      executeAll (txs.take count) .new = some (results.take count, earlier) ∧
      (∀ calls, count ≤ calls → recover (some ((logFile results).take cut)) calls =
        some (recovered, .ok ())) ∧
      recovered = advanceToLast (results.take count) earlier ∧
      executeAll (txs.drop count) recovered = some (results.drop count, again) ∧
      ∀ key, again.get key .memory = leader.get key .memory := by
  have entries_take (position : Nat) :
      ((resultsFrom 0 txs).map logEntry).take position =
        ((resultsFrom 0 txs).take position).map logEntry := List.map_take.symm
  obtain ⟨count, part, ⟨within, whole⟩, same, starved⟩ := cut_splits (fun entry => logFile_fits stored) cut
  rw [List.length_map, resultsFrom_length] at within whole
  have kept : ∀ tx ∈ txs.take count, Stored tx := fun tx member => stored tx (List.mem_of_mem_take member)
  have first : executeAll txs .new = some (resultsFrom 0 txs, committedAll txs .new) :=
    executeAll_eq sound_new txs
  have again : executeAll (txs.take count) .new =
      some ((resultsFrom 0 txs).take count, committedAll (txs.take count) .new) := by
    rw [resultsFrom_take]
    exact executeAll_eq sound_new (txs.take count)
  obtain ⟨recovered, replays, settled⟩ :=
    replayAll_settled (fun tx member => (kept tx member).calls) settled_new
  have advanced :
      Settled (advanceToLast ((resultsFrom 0 txs).take count) (committedAll (txs.take count) .new))
      ([] ++ (txs.take count).map writeSet) :=
        resultsFrom_take 0 count txs ▸ advanceToLast_settled (txs.take count)
  have next : recovered.nextTxOffset = 0 + count := by
    rw [settled.next, List.nil_append, List.length_map, List.length_take,
      Nat.min_eq_left within, Nat.zero_add]
  have rest : executeAll (txs.drop count) recovered =
      some ((resultsFrom 0 txs).drop count, committedAll (txs.drop count) recovered) := by
    rw [resultsFrom_drop, ← next]
    exact executeAll_eq settled.sound (txs.drop count)
  refine ⟨_, _, first, count, within, ?_, _, recovered, _, again, ?_, settled.eq advanced, rest, ?_⟩
  · intro position inside
    rw [whole position inside, entries_take]
    rfl
  · intro calls enough
    have fits : ∀ entry ∈ ((resultsFrom 0 txs).take count).map logEntry, LogRecovery.Fits entry.txData := by
      intro entry member
      rw [resultsFrom_take] at member
      exact logFile_fits kept member
    rw [entries_take] at same
    rw [logFile, same, recover_replays (Yields.part fits starved)]
    · rw [List.map_map]
      have data : ((resultsFrom 0 txs).take count).map (LogEntry.txData ∘ logEntry) =
          (txs.take count).map payload := by
        rw [resultsFrom_take]
        exact resultsFrom_txData 0 (txs.take count)
      rw [data]
      exact replays
    · rw [List.length_map, List.length_take]
      exact (Nat.min_le_left _ _).trans enough
  · intro key
    obtain ⟨tracks, _⟩ := settled_new.opened txs
    obtain ⟨later, _⟩ := settled.opened (txs.drop count)
    rw [tracks.refines.memory, later.refines.memory]
    have log : [] ++ (txs.take count).map writeSet ++ (txs.drop count).map writeSet =
        [] ++ txs.map writeSet := by
      rw [List.nil_append, List.nil_append, ← List.map_append, List.take_append_drop]
    exact congrArg (fun log => some (WriteLog.replay log WriteLog.empty key)) log

end Crash

private theorem put_stored {key value : String} {bytes : List UInt8} (calls : TxFits (put key value))
    (data : payload (put key value) = ⟨[⟨0, [⟨bytes⟩]⟩], [⟨0, []⟩], []⟩) (short : Short bytes) :
    Stored (put key value) := by
  refine ⟨calls, ?_⟩
  rw [data]
  constructor <;> simp [Short]
  exact short

theorem crash_loses_a_suffix_torn :
    ∃ results recovered, @recover ⟨true⟩ (some ((logFile results).take 30)) 2 = some (recovered, .ok ()) ∧
    results.length = 2 ∧ recovered.get "a" .replicated = some (some "1") ∧
    recovered.get "b" .memory = some none := by
  let : BuildProfile := ⟨true⟩
  have stored : ∀ tx ∈ [put "a" "1", put "b" "2"], Stored tx := by
    intro tx member
    rcases List.mem_cons.mp member with rfl | member
    · exact @put_stored "a" "1" [1, 97, 1, 49] (by decide) (by decide) (by simp [Short])
    · obtain rfl := List.mem_singleton.mp member
      exact @put_stored "b" "2" [1, 98, 1, 50] (by decide) (by decide) (by simp [Short])
  obtain ⟨results, leader, ran, count, within, whole, earlier, recovered, _, first, recovers, same,
      _⟩ := crash_loses_a_suffix stored 30
  obtain ⟨rfl, -⟩ := Prod.mk.inj (Option.some.inj ((executeAll_eq sound_new _).symm.trans ran))
  have one := (whole 1 (by decide)).mpr (by decide)
  have two := mt (whole 2 (by decide)).mp (by decide)
  obtain rfl : count = 1 := by omega
  obtain ⟨-, rfl⟩ := Prod.mk.inj (Option.some.inj ((executeAll_eq sound_new _).symm.trans first))
  have settled := advanceToLast_settled [put "a" "1"]
  refine ⟨_, recovered, recovers 2 (by decide), rfl, ?_, ?_⟩
  · rw [same]
    exact settled.get "a" .replicated
  · rw [same]
    exact settled.get "b" .memory

end OmniSpacetimeDb.Proofs.CrashRecovery
