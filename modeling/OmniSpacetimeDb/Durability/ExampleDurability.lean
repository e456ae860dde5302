import OmniSpacetimeDb.Datastore.ExampleDatastore
import OmniSpacetimeDb.Datastore.Serde

/-! The durability layer over a log file (`durability/example_durability.rs`): how
an entry is written, how the file is read back, and the tasks that append to it. -/

namespace OmniSpacetimeDb.Durability.ExampleDurability
open Foundations Datastore

structure LogEntry where
  txOffset : UInt64
  txData : TxData
deriving DecidableEq

def toLeBytes : Nat → Nat → List UInt8
  | 0, _ => []
  | width + 1, value => UInt8.ofNat value :: toLeBytes width (value / 256)

def fromLeBytes (bytes : List UInt8) : Nat := bytes.foldr (fun byte value => byte.toNat + 256 * value) 0

def LogEntry.serialize (entry : LogEntry) : List UInt8 :=
  toLeBytes 8 entry.txOffset.toNat ++ entry.txData.serialize

/-- A log file, `none` before it is created. -/
abbrev LogFile := Option (List UInt8)

section
variable [BuildProfile]

def LogEntry.deserialize : Reader ReadError LogEntry := do
  let bytes ← readExact 8
  let txData ← TxData.deserialize
  return { txOffset := UInt64.ofNat (fromLeBytes bytes), txData }

/-- One call of the iterator on what is left of the file. An early end is the one
error there is here, and the file has been read to its end by then. -/
def next (left : List UInt8) : Panics (Option (UInt64 × TxData) × List UInt8) :=
  match LogEntry.deserialize.run left with
  | .ok (entry, left) => some (some (entry.txOffset, entry.txData), left)
  | .error .shiftOverflow => none
  | .error _ => some (none, [])

def nexts : Nat → List UInt8 → Panics (List (Option (UInt64 × TxData)))
  | 0, _ => some []
  | calls + 1, left => do
    let (item, left) ← next left
    let items ← nexts calls left
    return item :: items

/-- `iter`, and the items of this many calls of its iterator. A file that is not there is an
error that is not handled. -/
def iter (file : LogFile) (calls : Nat) : Panics (List (Option (UInt64 × TxData))) := do
  let left ← file
  nexts calls left

end

/-- Where the task that writes the file stands: not spawned, about to create the
file, waiting for a request, with these bytes left to write, or about to report. A
report that nobody takes any more ends it, and the channel to it. -/
inductive Writer
  | absent
  | spawned
  | waiting
  | writing (entry : LogEntry) (left : List UInt8)
  | reporting (txOffset : UInt64)
  | panicked

/-- One `ExampleDurabilityLayer` with the tasks it has spawned. `poisoned` is the mutex
of `durable_offset`, and `updating` whether the updater has not panicked over it. The
last four fields are history only: the calls of `append_tx`, the entries that were
written in full, those that were dropped, and the last offset taken from a report. -/
structure Layer where
  file : LogFile
  sending : List LogEntry
  requests : List LogEntry
  writer : Writer
  reports : List UInt64
  durableOffset : Option UInt64
  poisoned : Bool
  updating : Bool
  appended : List LogEntry
  written : List LogEntry
  lost : List LogEntry
  reported : Option UInt64

namespace Layer

def new (file : LogFile) : Layer where
  file
  sending := []
  requests := []
  writer := .absent
  reports := []
  durableOffset := none
  poisoned := false
  updating := true
  appended := []
  written := []
  lost := []
  reported := none

/-- The first append spawns the writer and the updater; each one spawns its sender. -/
def append (layer : Layer) (entry : LogEntry) : Layer :=
  { layer with
    writer := match layer.writer with
      | .absent => .spawned
      | running => running
    sending := layer.sending ++ [entry]
    appended := layer.appended ++ [entry] }

/-- Without a durable offset the whole log is read, and 0 stands for an empty one.
There are no more entries than bytes. -/
def getDurableTxOffset [BuildProfile] (layer : Layer) : Panics (UInt64 × Layer) :=
  if layer.poisoned then none else
    match layer.durableOffset with
    | some offset => some (offset, layer)
    | none => do
      let left ← layer.file
      let items ← nexts (left.length + 1) left
      let offset := ((items.filterMap id).getLast?.map Prod.fst).getD 0
      return (offset, { layer with durableOffset := some offset })

inductive Event
  | append (entry : LogEntry)
  | getDurableTxOffset
  | send (position : Nat)
  | lose (position : Nat)
  | create
  | receive
  | write (count : Nat)
  | finish
  | report
  | update

/-- Both channels keep 64 messages, in the order they were sent. -/
def capacity : Nat := 64

/-- The caller and the tasks move in any order. `File::create` empties the file; a
write shows up in it bit by bit, and ends with the flush and the sync. A call of
`get_durable_tx_offset` that panics does so with the mutex of the offset: the updater
panics over the next report, the writer over the one after, and then the senders. -/
inductive Moves [BuildProfile] (layer : Layer) : Event → Layer → Prop
  | append (entry : LogEntry) : Moves layer (.append entry) (layer.append entry)
  | getDurableTxOffset {offset : UInt64} {after : Layer}
      (returned : layer.getDurableTxOffset = some (offset, after)) : Moves layer .getDurableTxOffset after
  | poison (panics : layer.getDurableTxOffset = none) :
      Moves layer .getDurableTxOffset { layer with poisoned := true }
  | send {position : Nat} {entry : LogEntry} (found : layer.sending[position]? = some entry)
      (received : layer.writer ≠ .panicked) (room : layer.requests.length < capacity) :
      Moves layer (.send position) { layer with
        sending := layer.sending.eraseIdx position
        requests := layer.requests ++ [entry] }
  | lose {position : Nat} {entry : LogEntry} (found : layer.sending[position]? = some entry)
      (closed : layer.writer = .panicked) :
      Moves layer (.lose position) { layer with
        sending := layer.sending.eraseIdx position
        lost := layer.lost ++ [entry] }
  | create (spawned : layer.writer = .spawned) :
      Moves layer .create { layer with file := some [], writer := .waiting }
  | receive {entry : LogEntry} {requests : List LogEntry} (waiting : layer.writer = .waiting)
      (first : layer.requests = entry :: requests) :
      Moves layer .receive { layer with requests, writer := .writing entry entry.serialize }
  | write {entry : LogEntry} {left : List UInt8} {count : Nat}
      (writing : layer.writer = .writing entry left) (unfinished : count < left.length) :
      Moves layer (.write count) { layer with
        file := layer.file.map (· ++ left.take count)
        writer := .writing entry (left.drop count) }
  | finish {entry : LogEntry} {left : List UInt8} (writing : layer.writer = .writing entry left) :
      Moves layer .finish { layer with
        file := layer.file.map (· ++ left)
        writer := .reporting entry.txOffset
        written := layer.written ++ [entry] }
  | report {offset : UInt64} (reporting : layer.writer = .reporting offset)
      (received : layer.updating = true) (room : layer.reports.length < capacity) :
      Moves layer .report { layer with reports := layer.reports ++ [offset], writer := .waiting }
  | unreported {offset : UInt64} (reporting : layer.writer = .reporting offset)
      (closed : layer.updating = false) :
      Moves layer .report { layer with
        requests := []
        writer := .panicked
        lost := layer.lost ++ layer.requests }
  | update {offset : UInt64} {reports : List UInt64} (running : layer.updating = true)
      (first : layer.reports = offset :: reports) (sound : layer.poisoned = false) :
      Moves layer .update { layer with reports, durableOffset := some offset, reported := some offset }
  | outdated {offset : UInt64} {reports : List UInt64} (running : layer.updating = true)
      (first : layer.reports = offset :: reports) (poisoned : layer.poisoned = true) :
      Moves layer .update { layer with reports := [], updating := false }

end Layer
end OmniSpacetimeDb.Durability.ExampleDurability
