import OmniSpacetimeDb.Proofs.StoreReplay
import Mathlib.Logic.Function.Basic

/-! One transaction against a plain map. The map starts from the Memory view and
takes the same calls; a commit makes it the Memory view. -/

namespace OmniSpacetimeDb.Proofs.Transaction
open Foundations Datastore Store RowCodec StoreReplay

def plainReply (view : View String String) : Call → Option (Option String) × View String String
  | .get key => (some (view key), view)
  | .set key value => (none, Function.update view key (some value))
  | .delete key => (some (view key), Function.update view key none)

def plainReplies (view : View String String) :
    List Call → List (Option (Option String)) × View String String
  | [] => ([], view)
  | call :: calls =>
    let (reply, view) := plainReply view call
    let (replies, view) := plainReplies view calls
    (reply :: replies, view)

def written (key : String) : Call → Option (Option String)
  | .get _ => none
  | .set other value => if key = other then some (some value) else none
  | .delete other => if key = other then some none else none

def lastWrite (key : String) (calls : List Call) : Option (Option String) :=
  calls.reverse.findSome? (written key)

section Diffs

theorem write_lookup (call : Call) (diff : HashMap String Diff) (key : String) :
    ((call.write diff).lookup key).map Diff.value =
      (written key call).or ((diff.lookup key).map Diff.value) := by
  cases call with
  | get other => rfl
  | set other value =>
    rw [Call.write, HashMap.lookup_insert_eq, written]
    split <;> rfl
  | delete other =>
    rw [Call.write, HashMap.lookup_insert_eq, HashMap.lookup_erase_eq, written]
    split <;> rfl

theorem writes_lookup (calls : List Call) (key : String) :
    ((writes calls).lookup key).map Diff.value = lastWrite key calls := by
  induction calls using List.reverseRecOn with
  | nil => rfl
  | append_singleton calls call ih =>
    have last : writes (calls ++ [call]) = call.write (writes calls) := by
      rw [writes, List.foldl_append]
      rfl
    rw [last, write_lookup, ih, lastWrite, lastWrite, List.reverse_append]
    cases found : written key call <;> simp [found]

end Diffs

/-- The plain map that a transaction stands for while it is open. -/
def seen (memory : View String String) (diff : HashMap String Diff) : View String String :=
  fun key => ((diff.lookup key).map Diff.value).getD (memory key)

theorem seen_write (memory : View String String) (diff : HashMap String Diff) (call : Call) :
    seen memory (call.write diff) = (plainReply (seen memory diff) call).2 := by
  funext key
  rw [seen, write_lookup]
  cases call with
  | get other => rfl
  | set other value =>
    simp only [written, plainReply, Function.update_apply]
    split <;> rfl
  | delete other =>
    simp only [written, plainReply, Function.update_apply]
    split <;> rfl

section Replies
variable {memory : View String String} {tx : MutTx}

theorem reply_eq (reads : ∀ key, tx.committedState.get key .memory = some (memory key)) (call : Call) :
    tx.reply call = some ((plainReply (seen memory tx.diff) call).1,
      { tx with diff := call.write tx.diff }) := by
  cases call with
  | get key =>
    simp only [MutTx.reply, MutTx.get, reads, plainReply, seen, Call.write]
    cases tx.diff.lookup key <;> rfl
  | set key value => rfl
  | delete key =>
    simp only [MutTx.reply, MutTx.delete, reads, plainReply, seen, Call.write]
    cases tx.diff.lookup key <;> rfl

/-- The committed state stays as it is while the transaction is open, so each
call finds the plain map that the calls before it have left. -/
theorem replies_eq (reads : ∀ key, tx.committedState.get key .memory = some (memory key))
    (calls : List Call) :
    tx.replies calls =
      some ((plainReplies (seen memory tx.diff) calls).1,
        { tx with diff := calls.foldl Call.write tx.diff }) ∧
    seen memory (calls.foldl Call.write tx.diff) = (plainReplies (seen memory tx.diff) calls).2 := by
  induction calls generalizing tx with
  | nil => exact ⟨rfl, rfl⟩
  | cons call calls ih =>
    have rest := @ih { tx with diff := call.write tx.diff } reads
    rw [seen_write] at rest
    refine ⟨?_, rest.2⟩
    simp only [MutTx.replies, reply_eq reads, rest.1, Option.bind_eq_bind, Option.bind_some,
      plainReplies, List.foldl_cons]
    rfl

theorem begin_replies {state : CommittedState}
    (reads : ∀ key, state.get key .memory = some (memory key)) (calls : List Call) :
    state.beginMutTx.replies calls = some ((plainReplies memory calls).1, ⟨writes calls, state⟩) ∧
    seen memory (writes calls) = (plainReplies memory calls).2 := by
  have unwritten : seen memory ∅ = memory := rfl
  have opened := @replies_eq memory state.beginMutTx reads calls
  simp only [CommittedState.beginMutTx, unwritten] at opened
  exact opened

end Replies

section Payload
variable (entries : List (Sigma fun _ : String => Diff))

theorem rows_perm : ((insertsOf entries).map ExampleRow.key ++ deletesOf entries).Perm entries.keys := by
  induction entries with
  | nil => exact .nil
  | cons entry entries ih =>
    obtain ⟨key, diff⟩ := entry
    cases diff with
    | insert value => exact ih.cons key
    | delete => exact List.perm_middle.trans (ih.cons key)

theorem mem_insertsOf {key value : String} :
    (⟨key, value⟩ : ExampleRow) ∈ insertsOf entries ↔ ⟨key, .insert value⟩ ∈ entries := by
  rw [insertsOf, List.mem_filterMap]
  constructor
  · rintro ⟨⟨other, diff⟩, member, made⟩
    cases diff with
    | delete => cases made
    | insert _ =>
      cases made
      exact member
  · exact fun member => ⟨_, member, rfl⟩

theorem mem_deletesOf {key : String} : key ∈ deletesOf entries ↔ ⟨key, .delete⟩ ∈ entries := by
  rw [deletesOf, List.mem_map]
  constructor
  · rintro ⟨⟨other, diff⟩, member, rfl⟩
    obtain ⟨inside, deleted⟩ := List.mem_filter.mp member
    cases diff with
    | delete => exact inside
    | insert value => cases deleted
  · exact fun member => ⟨_, List.mem_filter.mpr ⟨member, rfl⟩, rfl⟩

end Payload

theorem entry_iff (tx : ClientTx) (key : String) (diff : Diff) :
    ⟨key, diff⟩ ∈ tx.order.entries ↔ lastWrite key tx.calls = some diff.value := by
  have lookup : tx.order.lookup key = (writes tx.calls).lookup key := by
    rw [← tx.visits, Finmap.lookup_toFinmap]
  rw [← AList.mem_lookup_iff, lookup, ← writes_lookup]
  cases (writes tx.calls).lookup key with
  | none => simp
  | some found => cases found <;> cases diff <;> simp [Diff.value]

section Commit
variable [BuildProfile]

/-- One row for every key that the calls wrote: its value if the last write was a
set, its name if that was a delete. The rows read back as they were written. -/
structure Records (calls : List Call) (data : TxData) (inserts : List ExampleRow)
    (deletes : List String) : Prop where
  inserted : data.inserts = [⟨0, inserts.map fun row => ⟨serializeExampleRow row⟩⟩]
  deleted : data.deletes = [⟨0, deletes.map fun key => ⟨utf8 key⟩⟩]
  once : (inserts.map ExampleRow.key ++ deletes).Nodup
  sets : ∀ key value, ⟨key, value⟩ ∈ inserts ↔ lastWrite key calls = some (some value)
  removes : ∀ key, key ∈ deletes ↔ lastWrite key calls = some none
  decodable : ∀ row ∈ inserts, FitsU32 row.key → FitsU32 row.value →
    deserializeExampleRow (serializeExampleRow row) = .ok row
  readable : ∀ key ∈ deletes, fromUtf8 (utf8 key) = some key

theorem payload_records (tx : ClientTx) :
    Records tx.calls (payload tx) (insertsOf tx.order.entries) (deletesOf tx.order.entries) where
  inserted := rfl
  deleted := rfl
  once := (rows_perm tx.order.entries).nodup_iff.mpr tx.order.nodupKeys
  sets key value := (mem_insertsOf tx.order.entries).trans (entry_iff tx key (.insert value))
  removes key := (mem_deletesOf tx.order.entries).trans (entry_iff tx key .delete)
  decodable _ _ key value := deserialize_serialize key value
  readable key _ := fromUtf8_utf8 key

omit [BuildProfile] in
theorem committed_memory {state : CommittedState} {memory : View String String} (sound : Sound state)
    (reads : ∀ key, state.get key .memory = some (memory key)) (tx : ClientTx) (key : String) :
    (committed tx state).get key .memory = some (seen memory (writes tx.calls) key) := by
  have before := (get_memory sound key).symm.trans (reads key)
  rw [get_memory (sound_committed sound tx), committed_history, committed_replicated, seen]
  cases found : (writes tx.calls).lookup key with
  | none => simpa using before
  | some diff => simp

theorem sound_run {operations : List Operation} {state : CommittedState}
    (run : Run Operates .new operations state) : Sound state := by
  apply run.invariant Sound sound_new
  intro before operation after sound step
  cases operates_cases sound step with
  | committed tx => exact sound_committed sound tx
  | advanced txOffset => exact sound_advance before txOffset
  | rolledBack => exact sound_rollback before
  | refused | replayed => exact sound

/-- A transaction answers as a plain map would that starts from the Memory view.
Its commit makes the map the Memory view, leaves the Replicated view alone, and
returns one row for each key it wrote. -/
theorem transaction_is_plain_map {operations : List Operation} {state : CommittedState}
    (run : Run Operates .new operations state) :
    ∃ memory : View String String, (∀ key, state.get key .memory = some (memory key)) ∧
      ∀ calls, ∃ opened, state.beginMutTx.replies calls = some ((plainReplies memory calls).1, opened) ∧
        ∀ order : Entries String Diff, order.toFinmap = opened.diff →
          (∀ key, (commitMutTx opened order).2.get key .memory = some ((plainReplies memory calls).2 key)) ∧
          (∀ key, (commitMutTx opened order).2.get key .replicated = state.get key .replicated) ∧
          ∃ inserts deletes, Records calls (commitMutTx opened order).1.txData inserts deletes := by
  have sound := sound_run run
  have reads := get_memory sound
  refine ⟨_, reads, ?_⟩
  intro calls
  obtain ⟨replies, final⟩ := begin_replies reads calls
  refine ⟨_, replies, ?_⟩
  intro order visits
  let tx : ClientTx := ⟨calls, order, visits⟩
  rw [commit_eq tx state]
  refine ⟨?_, ?_, _, _, payload_records tx⟩
  · intro key
    rw [committed_memory sound reads tx, ← final]
  · intro key
    rw [get_replicated, get_replicated, committed_replicated]

end Commit

theorem transaction_is_plain_map_overwrite : ∃ state,
    Run (@Operates ⟨true⟩) .new [.commit (put "a" "1")] state ∧
    ∃ opened, state.beginMutTx.replies [.delete "a", .get "a", .set "a" "2"] =
      some ([some (some "1"), some none, none], opened) ∧
      (commitMutTx opened (AList.insert "a" (.insert "2") ∅)).2.get "a" .memory = some (some "2") := by
  let : BuildProfile := ⟨true⟩
  have run : Run Operates .new ([] ++ [.commit (put "a" "1")]) _ :=
    Run.nil.snoc (.commit (execute_eq sound_new _))
  obtain ⟨memory, reads, each⟩ := transaction_is_plain_map run
  obtain ⟨opened, replies, commits⟩ := each [.delete "a", .get "a", .set "a" "2"]
  have known : memory "a" = some "1" := (Option.some.inj (reads "a")).symm
  have answers : (plainReplies memory [.delete "a", .get "a", .set "a" "2"]).1 =
      [some (some "1"), some none, none] := by
    simp [plainReplies, plainReply, known]
  rw [answers] at replies
  refine ⟨_, run, opened, replies, ?_⟩
  have visits : (AList.insert "a" (.insert "2") ∅ : Entries String Diff).toFinmap = opened.diff := by
    cases replies
    rfl
  rw [(commits _ visits).1]
  simp [plainReplies, plainReply]

end OmniSpacetimeDb.Proofs.Transaction
