import OmniSpacetimeDb.Datastore.TxData

/-! Transaction data as bytes (`datastore/tx_data/serde.rs`). Every list is
prefixed with its length; the casts `len() as u32` keep the low 32 bits of it. -/

namespace OmniSpacetimeDb.Datastore
open Foundations

def serializeList {α : Type} (serialize : α → List UInt8) (items : List α) : List UInt8 :=
  writeVarint (UInt32.ofNat items.length) ++ items.flatMap serialize

def serializeRowData (rowData : RowData) : List UInt8 :=
  writeVarint (UInt32.ofNat rowData.bytes.length) ++ rowData.bytes

def serializeInsertList (insertList : InsertList) : List UInt8 :=
  writeVarint insertList.tableId ++ serializeList serializeRowData insertList.inserts

def serializeDeleteList (deleteList : DeleteList) : List UInt8 :=
  writeVarint deleteList.tableId ++ serializeList serializeRowData deleteList.deletes

def TxData.serialize (data : TxData) : List UInt8 :=
  serializeList serializeInsertList data.inserts ++
    (serializeList serializeDeleteList data.deletes ++ serializeList writeVarint data.truncs)

variable [BuildProfile]

def deserializeList {α : Type} (deserialize : Reader ReadError α) : Reader ReadError (List α) := do
  let count ← readVarint
  deserialize.times count.toNat

def deserializeRowData : Reader ReadError RowData := do
  let length ← readVarint
  let buffer ← readExact length.toNat
  return ⟨buffer⟩

def deserializeInsertList : Reader ReadError InsertList := do
  let tableId ← readVarint
  let inserts ← deserializeList deserializeRowData
  return { tableId, inserts }

def deserializeDeleteList : Reader ReadError DeleteList := do
  let tableId ← readVarint
  let deletes ← deserializeList deserializeRowData
  return { tableId, deletes }

def TxData.deserialize : Reader ReadError TxData := do
  let inserts ← deserializeList deserializeInsertList
  let deletes ← deserializeList deserializeDeleteList
  let truncs ← deserializeList readVarint
  return { inserts, deletes, truncs }

end OmniSpacetimeDb.Datastore
