import OmniSpacetimeDb.Foundations.Reader

/-! The payload of a transaction as it is replicated, and the variable-length
integers that prefix its parts (`datastore/tx_data.rs`, `tx_data/serde.rs`). A
`TxOffset` is a `Nat`: commits and replays count offsets up by one, and a store that
is advanced to `u64::MAX`, whose counters would overflow in the next rollback or
replay, is left out. -/

namespace OmniSpacetimeDb.Datastore
open Foundations

abbrev TableId := UInt32

structure RowData where
  bytes : List UInt8
deriving DecidableEq

structure InsertList where
  tableId : TableId
  inserts : List RowData
deriving DecidableEq

structure DeleteList where
  tableId : TableId
  deletes : List RowData
deriving DecidableEq

structure TxData where
  inserts : List InsertList
  deletes : List DeleteList
  truncs : List TableId
deriving DecidableEq

structure TxResult where
  txOffset : Nat
  txData : TxData
deriving DecidableEq

/-- Whether the build panics on arithmetic overflow, as `cargo test` does, or wraps. -/
class BuildProfile where
  overflowChecks : Bool

/-- An `io::Error`, or the panic of an overflowing shift. -/
inductive ReadError
  | unexpectedEof
  | invalidData (message : String)
  | shiftOverflow
deriving DecidableEq

def readExact (length : Nat) : Reader ReadError (List UInt8) := fun bytes =>
  if length ≤ bytes.length then .ok (bytes.take length, bytes.drop length) else .error .unexpectedEof

/-- The `while` loop shifts seven bits out of a 32-bit value, so four rounds are enough. -/
def writeVarintLoop : Nat → UInt32 → List UInt8
  | 0, value => [value.toUInt8]
  | rounds + 1, value =>
    if 0x80 ≤ value then ((value.toUInt8 &&& 0x7F) ||| 0x80) :: writeVarintLoop rounds (value >>> 7)
    else [value.toUInt8]

def writeVarint (value : UInt32) : List UInt8 := writeVarintLoop 4 value

variable [BuildProfile]

/-- A release build uses the low five bits of the shift amount only. -/
def shiftLeft (value : UInt32) (amount : Nat) : Except ReadError UInt32 :=
  if amount < 32 then .ok (value <<< UInt32.ofNat amount)
  else if BuildProfile.overflowChecks then .error .shiftOverflow
  else .ok (value <<< UInt32.ofNat (amount % 32))

def readVarintLoop (value : UInt32) (shift : Nat) : List UInt8 → Except ReadError (UInt32 × List UInt8)
  | [] => .error .unexpectedEof
  | byte :: bytes => do
    let payload ← shiftLeft (byte &&& 0x7F).toUInt32 shift
    if byte &&& 0x80 = 0 then return (value ||| payload, bytes)
    else readVarintLoop (value ||| payload) (shift + 7) bytes

def readVarint : Reader ReadError UInt32 := readVarintLoop 0 0

end OmniSpacetimeDb.Datastore
