import OmniSpacetimeDb.Datastore.TxData
import OmniSpacetimeDb.Foundations.HashMap
import OmniSpacetimeDb.Foundations.Update

/-! The local store with its two watermarks (`datastore/example_datastore.rs`).
Every mutation holds the write lock, so the store is the state behind that lock.
A function that can panic returns `none` when it does. -/

namespace OmniSpacetimeDb.Datastore
open Foundations

abbrev Panics (α : Type) := Option α

inductive DatastoreError
  | serialization
  | durabilityOffsetError
  | insertDeserializationError
  | deleteDeserializationError
  | notLeader
  | invalidDurabilityOffset
deriving DecidableEq

inductive DurabilityLevel
  | memory
  | replicated

def utf8 (text : String) : List UInt8 := text.toByteArray.data.toList

def fromUtf8 (bytes : List UInt8) : Option String := String.fromUTF8? ⟨bytes.toArray⟩

structure ExampleRow where
  key : String
  value : String
deriving DecidableEq

/-- The casts `len() as u32` keep the low 32 bits of a length. -/
def serializeExampleRow (row : ExampleRow) : List UInt8 :=
  writeVarint (UInt32.ofNat (utf8 row.key).length) ++ utf8 row.key ++
    (writeVarint (UInt32.ofNat (utf8 row.value).length) ++ utf8 row.value)

def decodeUtf8 (bytes : List UInt8) (message : String) : Reader ReadError String :=
  match fromUtf8 bytes with
  | some text => pure text
  | none => throw (.invalidData message)

section
variable [BuildProfile]

def readExampleRow : Reader ReadError ExampleRow := do
  let keyLen ← readVarint
  let keyBytes ← readExact keyLen.toNat
  let key ← decodeUtf8 keyBytes "Invalid UTF-8 for key"
  let valueLen ← readVarint
  let valueBytes ← readExact valueLen.toNat
  let value ← decodeUtf8 valueBytes "Invalid UTF-8 for value"
  return { key, value }

def deserializeExampleRow (bytes : List UInt8) : Except ReadError ExampleRow := readExampleRow.run' bytes

end

inductive Diff
  | insert (value : String)
  | delete
deriving DecidableEq

def Diff.value : Diff → Option String
  | .insert value => some value
  | .delete => none

def Diff.applyTo (diff : Diff) (key : String) (replicated : HashMap String String) :
    HashMap String String :=
  match diff with
  | .insert value => replicated.insert key value
  | .delete => replicated.erase key

structure TxDiff where
  history : List (Nat × Diff)
deriving DecidableEq

def TxDiff.getLatest (txDiff : TxDiff) : Panics (Nat × Diff) := txDiff.history.getLast?

def TxDiff.insertDiff (txDiff : TxDiff) (offset : Nat) (diff : Diff) : TxDiff :=
  ⟨txDiff.history ++ [(offset, diff)]⟩

@[ext] structure CommittedState where
  nextTxOffset : Nat
  replicatedTxOffset : Option Nat
  replicatedState : HashMap String String
  committedDiff : HashMap String TxDiff
deriving DecidableEq

def CommittedState.new : CommittedState where
  nextTxOffset := 0
  replicatedTxOffset := none
  replicatedState := ∅
  committedDiff := ∅

def CommittedState.get (state : CommittedState) (key : String) (durabilityLevel : DurabilityLevel) :
    Panics (Option String) :=
  match durabilityLevel, state.committedDiff.lookup key with
  | .memory, some txDiff => txDiff.getLatest.map fun (_, diff) => diff.value
  | .memory, none | .replicated, _ => some (state.replicatedState.lookup key)

/-- The `while` loop over the history of one key. `remove(0)` takes an entry out
before its offset is compared, so the entry that ends the loop is lost as well. -/
def drain (txOffset : Nat) (key : String) : List (Nat × Diff) → HashMap String String →
    HashMap String String × List (Nat × Diff)
  | [], replicated => (replicated, [])
  | (offset, diff) :: history, replicated =>
    if offset ≤ txOffset then drain txOffset key history (diff.applyTo key replicated)
    else (replicated, history)

def advanceEntry (txOffset : Nat) (state : HashMap String String × HashMap String TxDiff) (key : String)
    (txDiff : TxDiff) : HashMap String String × HashMap String TxDiff :=
  let (replicated, history) := drain txOffset key txDiff.history state.1
  (replicated, state.2.insert key ⟨history⟩)

theorem Diff.lookup_applyTo (diff : Diff) (key other : String) (replicated : HashMap String String) :
    (diff.applyTo key replicated).lookup other =
      if other = key then diff.value else replicated.lookup other := by
  cases diff with
  | insert value => exact HashMap.lookup_insert_eq replicated key other value
  | delete => exact HashMap.lookup_erase_eq replicated key other

theorem drain_history (txOffset : Nat) (key : String) (history : List (Nat × Diff))
    (replicated : HashMap String String) : (drain txOffset key history replicated).2 =
      (history.dropWhile fun entry => decide (entry.1 ≤ txOffset)).tail := by
  induction history generalizing replicated with
  | nil => rfl
  | cons entry history ih =>
    by_cases old : entry.1 ≤ txOffset
    · simp only [drain, old, if_true, ih, List.dropWhile_cons, decide_true]
    · simp [drain, old]

theorem drain_here (txOffset : Nat) (key : String) (history : List (Nat × Diff))
    (replicated : HashMap String String) :
    (drain txOffset key history replicated).1.lookup key =
      ((history.takeWhile fun entry => decide (entry.1 ≤ txOffset)).getLast?.map
        fun entry => entry.2.value).getD
        (replicated.lookup key) := by
  induction history generalizing replicated with
  | nil => rfl
  | cons entry history ih =>
    by_cases old : entry.1 ≤ txOffset
    · simp only [drain, old, if_true, ih, List.takeWhile_cons, decide_true,
        List.getLast?_cons, Diff.lookup_applyTo]
      cases (history.takeWhile fun entry => decide (entry.1 ≤ txOffset)).getLast? <;> rfl
    · simp [drain, old]

theorem drain_elsewhere (txOffset : Nat) (key : String) (history : List (Nat × Diff))
    (replicated : HashMap String String) {other : String} (different : other ≠ key) :
    (drain txOffset key history replicated).1.lookup other = replicated.lookup other := by
  induction history generalizing replicated with
  | nil => rfl
  | cons entry history ih =>
    by_cases old : entry.1 ≤ txOffset
    · simp only [drain, old, if_true, ih, Diff.lookup_applyTo, different, if_false]
    · simp [drain, old]

theorem advanceEntry_commuting (txOffset : Nat) : HashMap.Commuting (advanceEntry txOffset) := by
  intro state first value second other different
  apply Prod.ext
  · apply Finmap.ext_lookup
    intro key
    simp only [advanceEntry]
    by_cases atFirst : key = first
    · subst first
      simp only [drain_elsewhere _ _ _ _ different, drain_here]
    · by_cases atSecond : key = second
      · subst second
        simp only [drain_elsewhere _ _ _ _ atFirst, drain_here]
      · simp only [drain_elsewhere _ _ _ _ atFirst, drain_elsewhere _ _ _ _ atSecond]
  · simp only [advanceEntry, drain_history]
    exact Finmap.insert_insert_of_ne state.2 different

/-- It always returns `Ok(())`. -/
def CommittedState.advanceReplicatedDurabilityOffset (state : CommittedState) (txOffset : Nat) :
    CommittedState :=
  let (replicatedState, committedDiff) :=
    state.committedDiff.visit (advanceEntry txOffset) (advanceEntry_commuting txOffset)
      (state.replicatedState, state.committedDiff)
  { state with
    replicatedState
    committedDiff := committedDiff.retain fun txDiff => !txDiff.history.isEmpty
    replicatedTxOffset := some txOffset }

/-- It always returns `Ok(())`. -/
def CommittedState.rollbackToReplicatedDurabilityOffset (state : CommittedState) : CommittedState :=
  { state with
    committedDiff := ∅
    nextTxOffset := state.replicatedTxOffset.elim 0 fun replicated => replicated + 1 }

inductive LockMode
  | read
  | write
deriving DecidableEq

/-- Whether a lock that is held in one mode keeps off a call that asks for another. -/
def LockMode.excludes : LockMode → LockMode → Bool
  | .read, .read => false
  | _, _ => true

/-- An open transaction that only reads holds a read guard on the state it sees. -/
structure Tx where
  durabilityLevel : DurabilityLevel
  committedState : CommittedState

def CommittedState.beginTx (state : CommittedState) (durabilityLevel : DurabilityLevel) : Tx :=
  ⟨durabilityLevel, state⟩

def Tx.get (tx : Tx) (key : String) : Panics (Option String) := tx.committedState.get key tx.durabilityLevel

/-- An open transaction holds the write guard, and so the state it will commit to. -/
structure MutTx where
  diff : HashMap String Diff
  committedState : CommittedState

def CommittedState.beginMutTx (state : CommittedState) : MutTx := ⟨∅, state⟩

namespace MutTx

def get (tx : MutTx) (key : String) : Panics (Option String) :=
  match tx.diff.lookup key with
  | some diff => some diff.value
  | none => tx.committedState.get key .memory

def set (tx : MutTx) (key value : String) : MutTx := { tx with diff := tx.diff.insert key (.insert value) }

def delete (tx : MutTx) (key : String) : Panics (Option String × MutTx) := do
  let old ← match tx.diff.lookup key with
    | some diff => some diff.value
    | none => tx.committedState.get key .memory
  return (old, { tx with diff := (tx.diff.erase key).insert key .delete })

end MutTx

inductive Call
  | get (key : String)
  | set (key value : String)
  | delete (key : String)
deriving DecidableEq

def MutTx.call (tx : MutTx) : Call → Panics MutTx
  | .get key => (tx.get key).map fun _ => tx
  | .set key value => some (tx.set key value)
  | .delete key => (tx.delete key).map Prod.snd

/-- What a call returns to the client: a `set` returns nothing. -/
def MutTx.reply (tx : MutTx) : Call → Panics (Option (Option String) × MutTx)
  | .get key => (tx.get key).map fun value => (some value, tx)
  | .set key value => some (none, tx.set key value)
  | .delete key => (tx.delete key).map fun (old, tx) => (some old, tx)

def MutTx.replies (tx : MutTx) : List Call → Panics (List (Option (Option String)) × MutTx)
  | [] => some ([], tx)
  | call :: calls => do
    let (reply, tx) ← tx.reply call
    let (replies, tx) ← tx.replies calls
    return (reply :: replies, tx)

def MutTx.run (tx : MutTx) (calls : List Call) : Panics MutTx := calls.foldlM MutTx.call tx

/-- The body of the commit loop: the diff joins the history of its key, and its
row joins the payload. -/
def commitEntry (offset : Nat) (loop : HashMap String TxDiff × List ExampleRow × List String)
    (key : String) (diff : Diff) :
    HashMap String TxDiff × List ExampleRow × List String :=
  let txDiff := match loop.1.lookup key with
    | some txDiff => txDiff.insertDiff offset diff
    | none => TxDiff.insertDiff ⟨[]⟩ offset diff
  let committedDiff := loop.1.insert key txDiff
  match diff with
  | .insert value => (committedDiff, loop.2.1 ++ [⟨key, value⟩], loop.2.2)
  | .delete => (committedDiff, loop.2.1, loop.2.2 ++ [key])

def txDataOf (inserts : List ExampleRow) (deletes : List String) : TxData where
  inserts := [⟨0, inserts.map fun row => ⟨serializeExampleRow row⟩⟩]
  deletes := [⟨0, deletes.map fun key => ⟨utf8 key⟩⟩]
  truncs := []

/-- The loop visits the diff of the transaction in the order of its hash map,
which `order` lists. The call always returns `Ok`. -/
def commitMutTx (tx : MutTx) (order : Entries String Diff) : TxResult × CommittedState :=
  let offset := tx.committedState.nextTxOffset
  let (committedDiff, inserts, deletes) :=
    order.entries.foldl (fun loop entry => commitEntry offset loop entry.1 entry.2)
      (tx.committedState.committedDiff, [], [])
  ({ txOffset := offset, txData := txDataOf inserts deletes },
    { tx.committedState with committedDiff, nextTxOffset := offset + 1 })

def Call.write (diff : HashMap String Diff) : Call → HashMap String Diff
  | .get _ => diff
  | .set key value => diff.insert key (.insert value)
  | .delete key => (diff.erase key).insert key .delete

def writes (calls : List Call) : HashMap String Diff := calls.foldl Call.write ∅

/-- What a client does in one transaction, and the order in which the commit
will visit the hash map of its diff. -/
structure ClientTx where
  calls : List Call
  order : Entries String Diff
  visits : order.toFinmap = writes calls

def ClientTx.execute (tx : ClientTx) (state : CommittedState) : Panics (TxResult × CommittedState) := do
  let opened ← state.beginMutTx.run tx.calls
  return commitMutTx opened tx.order

def executeAll : List ClientTx → CommittedState → Panics (List TxResult × CommittedState)
  | [], state => some ([], state)
  | tx :: txs, state => do
    let (result, state) ← tx.execute state
    let (results, state) ← executeAll txs state
    return (result :: results, state)

section
variable [BuildProfile]

def replayInsert (insert : RowData) : Update (HashMap String String) DatastoreError := fun replicated =>
  match deserializeExampleRow insert.bytes with
  | .ok row => some (replicated.insert row.key row.value, .ok ())
  | .error .shiftOverflow => none
  | .error _ => some (replicated, .error .insertDeserializationError)

def replayDelete (delete : RowData) : Update (HashMap String String) DatastoreError := fun replicated =>
  match fromUtf8 delete.bytes with
  | some key => some (replicated.erase key, .ok ())
  | none => some (replicated, .error .deleteDeserializationError)

/-- The two loops over the payload. A table id other than 0 fails the assertion. -/
def replayRows (data : TxData) : Update (HashMap String String) DatastoreError :=
  (Update.forEach (fun list : InsertList =>
    if list.tableId = 0 then Update.forEach replayInsert list.inserts else Update.panic)
    data.inserts).andThen
  (Update.forEach (fun list : DeleteList =>
    if list.tableId = 0 then Update.forEach replayDelete list.deletes else Update.panic)
    data.deletes)

/-- The guard of `replay_transaction`: nothing is committed beyond the replicated offset. -/
def CommittedState.caughtUp (state : CommittedState) : Bool :=
  match state.replicatedTxOffset with
  | some offset => state.nextTxOffset == offset + 1
  | none => state.nextTxOffset == 0

def replayTransaction (data : TxData) : Update CommittedState DatastoreError := fun state =>
  if state.caughtUp then do
    let (replicatedState, result) ← replayRows data state.replicatedState
    return ({ state with
      replicatedTxOffset := some (state.replicatedTxOffset.elim 0 fun offset => offset + 1)
      nextTxOffset := state.nextTxOffset + 1
      replicatedState }, result)
  else some (state, .error .invalidDurabilityOffset)

inductive Operation
  | commit (tx : ClientTx)
  | advance (txOffset : Nat)
  | rollback
  | replay (data : TxData)

/-- Each call holds the write lock, so the store sees one after another. -/
inductive Operates (state : CommittedState) : Operation → CommittedState → Prop
  | commit {tx : ClientTx} {result : TxResult} {after : CommittedState}
      (returned : tx.execute state = some (result, after)) :
      Operates state (.commit tx) after
  | advance (txOffset : Nat) :
      Operates state (.advance txOffset) (state.advanceReplicatedDurabilityOffset txOffset)
  | rollback : Operates state .rollback state.rollbackToReplicatedDurabilityOffset
  | replay {data : TxData} {result : Except DatastoreError Unit} {after : CommittedState}
      (returned : replayTransaction data state = some (after, result)) : Operates state (.replay data) after

end

def CommittedState.getReplicatedOffset (state : CommittedState) : Option Nat := state.replicatedTxOffset

def CommittedState.getCurOffset (state : CommittedState) : Option Nat :=
  if state.nextTxOffset = 0 then none else some (state.nextTxOffset - 1)

end OmniSpacetimeDb.Datastore
