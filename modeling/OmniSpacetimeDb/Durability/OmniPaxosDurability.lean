import OmniSpacetimeDb.Datastore.ExampleDatastore

/-! The durability layer over OmniPaxos (`durability/omnipaxos_durability.rs`).
OmniPaxos is another program: a call sees what it reads of its local replica. -/

namespace OmniSpacetimeDb.Durability
open Datastore

abbrev NodeId := Nat

structure DatabaseLogEntry where
  txOffset : Nat
  txData : TxData
deriving DecidableEq

inductive LogEntry
  | decided (entry : DatabaseLogEntry)
  | undecided (entry : DatabaseLogEntry)

/-- What `get_current_leader`, `get_decided_idx` and `read` return. -/
structure OmniPaxos where
  currentLeader : Option NodeId
  decidedIdx : Nat
  read : Nat → Option LogEntry

structure OmniPaxosDurability where
  omnipaxos : OmniPaxos
  nodeId : NodeId

def LogEntry.decided? : LogEntry → Option DatabaseLogEntry
  | .decided entry => some entry
  | .undecided _ => none

def DatabaseLogEntry.transaction (entry : DatabaseLogEntry) : Nat × TxData := (entry.txOffset, entry.txData)

namespace OmniPaxosDurability

def getCurrentLeader (durability : OmniPaxosDurability) : Option NodeId :=
  durability.omnipaxos.currentLeader

def isLeader (durability : OmniPaxosDurability) : Bool :=
  durability.omnipaxos.currentLeader == some durability.nodeId

def lastDecided (omnipaxos : OmniPaxos) : Nat :=
  if omnipaxos.decidedIdx > 0 then omnipaxos.decidedIdx - 1 else omnipaxos.decidedIdx

def getDurableTxOffsetOptional (durability : OmniPaxosDurability) : Option Nat :=
  match durability.omnipaxos.read (lastDecided durability.omnipaxos) with
  | some (.decided entry) => some entry.txOffset
  | _ => none

/-- A position where the log holds nothing is unwrapped. -/
def readDecidedAtPosition (durability : OmniPaxosDurability) (pos : Nat) : Panics (Option (Nat × TxData)) :=
  (durability.omnipaxos.read pos).map fun logEntry => logEntry.decided?.map DatabaseLogEntry.transaction

/-- The loop runs over `offset + 1..decided_idx + 1`. Entries that are not
decided are dropped; with nothing decided the first `read` is unwrapped. -/
def iterStartingFromOffset (durability : OmniPaxosDurability) (offset : Nat) :
    Panics (List (Nat × TxData)) := do
  let omnipaxos := durability.omnipaxos
  let decidedEntries ← if omnipaxos.decidedIdx = 0 then (omnipaxos.read offset).map fun entry => [entry]
    else some ((List.range' (offset + 1) (omnipaxos.decidedIdx - offset)).filterMap omnipaxos.read)
  return decidedEntries.filterMap fun logEntry => logEntry.decided?.map DatabaseLogEntry.transaction

def nextOffset [BuildProfile] (offset : UInt64) : Panics UInt64 :=
  if offset.toNat + 1 < 2 ^ 64 then some (offset + 1)
  else if BuildProfile.overflowChecks then none
  else some 0

/-- The iteration from any `u64`. Only the last one overflows; the others are
followed as `Nat` above. -/
def iterStartingFromOffset64 [BuildProfile] (durability : OmniPaxosDurability) (offset : UInt64) :
    Panics (List (Nat × TxData)) := do
  let omnipaxos := durability.omnipaxos
  let decidedEntries ← if omnipaxos.decidedIdx = 0 then
      (omnipaxos.read offset.toNat).map fun entry => [entry]
    else (nextOffset offset).map fun start =>
      (List.range' start.toNat (omnipaxos.decidedIdx + 1 - start.toNat)).filterMap omnipaxos.read
  return decidedEntries.filterMap fun logEntry => logEntry.decided?.map DatabaseLogEntry.transaction

def iter (durability : OmniPaxosDurability) : Panics (List (Nat × TxData)) :=
  durability.iterStartingFromOffset 0

def appendTx (txOffset : Nat) (txData : TxData) : DatabaseLogEntry := ⟨txOffset, txData⟩

/-- The entry at the position is read, but only the position is returned. -/
def getDurableTxOffset (durability : OmniPaxosDurability) : Nat := lastDecided durability.omnipaxos

end OmniPaxosDurability

/-- The contract of OmniPaxos: the entries below the decided index read as
decided, and no entry beyond it does. -/
structure OmniPaxos.Decides (omnipaxos : OmniPaxos) (log : List DatabaseLogEntry) : Prop where
  length : omnipaxos.decidedIdx = log.length
  below : ∀ position entry, log[position]? = some entry → omnipaxos.read position = some (.decided entry)
  beyond : ∀ position entry, log.length ≤ position → omnipaxos.read position ≠ some (.decided entry)

/-- What a replica shows that holds this log and has decided a prefix of it. -/
def OmniPaxos.ofLog (currentLeader : Option NodeId) (log : List DatabaseLogEntry) (decidedIdx : Nat) :
    OmniPaxos where
  currentLeader
  decidedIdx
  read position := log[position]?.map fun entry =>
    if position < decidedIdx then .decided entry else .undecided entry

end OmniSpacetimeDb.Durability
