import OmniSpacetimeDb.Proofs.LogRecovery

/-! Which transactions and rows are read back as they were written. What a reader
makes always has lengths that a prefix can hold, whatever the bytes were. -/

namespace OmniSpacetimeDb.Proofs.Serialization
open Foundations Datastore RowCodec LogRecovery Varint

theorem utf8_fromUtf8 {bytes : List UInt8} {text : String} (decoded : fromUtf8 bytes = some text) :
    utf8 text = bytes := by
  unfold fromUtf8 String.fromUTF8? at decoded
  split at decoded
  next valid =>
    obtain rfl := Option.some.inj decoded
    rfl
  next => contradiction

theorem readExact_returns (length : Nat) :
    (readExact length).Returns fun bytes => bytes.length = length := by
  intro bytes taken rest run
  simp only [StateT.run, readExact] at run
  split at run
  next enough =>
    obtain ⟨rfl, -⟩ := Prod.mk.inj (Except.ok.inj run)
    exact List.length_take_of_le enough
  next => contradiction

theorem decodeUtf8_returns (bytes : List UInt8) (message : String) :
    (decodeUtf8 bytes message).Returns fun text => utf8 text = bytes := by
  rw [decodeUtf8]
  split
  next text decoded => exact .pure (utf8_fromUtf8 decoded)
  next =>
    intro left text rest run
    contradiction

def zeros (count : Nat) : String := .ofList (List.replicate count '\x00')

theorem utf8_zeros (count : Nat) : utf8 (zeros count) = List.replicate count 0 := by
  have each (text : String) : utf8 (String.ofList ['\x00'] ++ text) = 0 :: utf8 text := by
    simp [utf8]
    rfl
  induction count with
  | zero => rfl
  | succ count ih =>
    rw [List.replicate_succ, ← ih, ← each, zeros, zeros, ← String.ofList_append]
    rfl

section
variable [BuildProfile]

theorem list_returns {α : Type} {deserialize : Reader ReadError α} {post : α → Prop}
    (each : deserialize.Returns post) :
    (deserializeList deserialize).Returns fun items => Short items ∧ ∀ item ∈ items, post item := by
  refine (Reader.Returns.anything readVarint).bind ?_
  intro count _ bytes items rest run
  obtain ⟨length, all⟩ := each.times count.toNat bytes items rest run
  exact ⟨length.trans_lt count.toNat_lt, all⟩

theorem buffer_returns : (readVarint >>= fun length => readExact length.toNat).Returns Short := by
  refine (Reader.Returns.anything readVarint).bind ?_
  intro length _ bytes buffer rest run
  exact (readExact_returns length.toNat bytes buffer rest run).trans_lt length.toNat_lt

theorem rowData_returns : deserializeRowData.Returns fun row => Short row.bytes := by
  have parts : deserializeRowData = (readVarint >>= fun length => readExact length.toNat) >>=
      fun buffer => pure ⟨buffer⟩ :=
    (bind_assoc _ _ _).symm
  rw [parts]
  exact buffer_returns.bind fun _ short => .pure short

theorem insertList_returns :
    deserializeInsertList.Returns fun list => Short list.inserts ∧
      ∀ row ∈ list.inserts, Short row.bytes := by
  refine (Reader.Returns.anything readVarint).bind ?_
  intro tableId _
  exact (list_returns rowData_returns).bind fun _ rows => .pure rows

theorem deleteList_returns :
    deserializeDeleteList.Returns fun list => Short list.deletes ∧
      ∀ row ∈ list.deletes, Short row.bytes := by
  refine (Reader.Returns.anything readVarint).bind ?_
  intro tableId _
  exact (list_returns rowData_returns).bind fun _ rows => .pure rows

theorem txData_returns : TxData.deserialize.Returns Fits := by
  refine (list_returns insertList_returns).bind ?_
  intro inserts ⟨insertsShort, insertRows⟩
  refine (list_returns deleteList_returns).bind ?_
  intro deletes ⟨deletesShort, deleteRows⟩
  refine (list_returns (.anything readVarint)).bind ?_
  intro truncs ⟨truncsShort, _⟩
  exact .pure ⟨insertsShort, deletesShort, truncsShort, insertRows, deleteRows⟩

theorem text_returns (message : String) : (do
    let length ← readVarint
    let bytes ← readExact length.toNat
    decodeUtf8 bytes message).Returns FitsU32 := by
  have parts :=
    bind_assoc readVarint (fun length => readExact length.toNat) fun bytes => decodeUtf8 bytes message
  rw [← parts]
  refine buffer_returns.bind ?_
  intro bytes short left text rest run
  rw [FitsU32, decodeUtf8_returns bytes message left text rest run]
  exact short

theorem exampleRow_returns : readExampleRow.Returns fun row => FitsU32 row.key ∧ FitsU32 row.value := by
  have parts : readExampleRow = (do
      let key ← (do
        let length ← readVarint
        let bytes ← readExact length.toNat
        decodeUtf8 bytes "Invalid UTF-8 for key")
      let value ← (do
        let length ← readVarint
        let bytes ← readExact length.toNat
        decodeUtf8 bytes "Invalid UTF-8 for value")
      return { key, value }) := by
    simp only [readExampleRow, bind_assoc]
  rw [parts]
  refine (text_returns _).bind ?_
  intro key keyFits
  refine (text_returns _).bind ?_
  intro value valueFits
  exact .pure ⟨keyFits, valueFits⟩

/-- The reader takes the zero bytes of the row for the lists that follow it. -/
theorem zeros_wrap {count : Nat} (enough : 2 ≤ count) (wraps : UInt32.ofNat count = 0) :
    TxData.deserialize.run' (TxData.mk [⟨0, [⟨List.replicate count 0⟩]⟩] [] []).serialize =
      .ok ⟨[⟨0, [⟨[]⟩]⟩], [], []⟩ := by
  obtain ⟨count, rfl⟩ := Nat.exists_eq_add_of_le' enough
  have row : serializeRowData ⟨List.replicate (count + 2) 0⟩ = 0 :: 0 :: 0 :: List.replicate count 0 := by
    rw [serializeRowData, List.length_replicate, wraps]
    rfl
  have bytes : (TxData.mk [⟨0, [⟨List.replicate (count + 2) 0⟩]⟩] [] []).serialize =
      1 :: 0 :: 1 :: 0 :: 0 :: 0 :: (List.replicate count 0 ++ [0, 0]) := by
    simp only [TxData.serialize, serializeList, serializeInsertList, List.flatMap_cons,
      List.flatMap_nil, row, List.append_nil]
    rfl
  rw [bytes]
  rfl

theorem zero_key_wraps {count : Nat} (enough : 1 ≤ count) (wraps : UInt32.ofNat count = 0) :
    deserializeExampleRow (serializeExampleRow ⟨zeros count, ""⟩) = .ok ⟨"", ""⟩ := by
  obtain ⟨count, rfl⟩ := Nat.exists_eq_add_of_le' enough
  have bytes : serializeExampleRow ⟨zeros (count + 1), ""⟩ = 0 :: 0 :: (List.replicate count 0 ++ [0]) := by
    rw [serializeExampleRow, utf8_zeros, List.length_replicate, wraps]
    rfl
  rw [bytes]
  rfl

theorem read_back_iff_lengths_fit :
    (∀ data : TxData, TxData.deserialize.run' data.serialize = .ok data ↔ Fits data) ∧
      ∀ row, deserializeExampleRow (serializeExampleRow row) = .ok row ↔
        FitsU32 row.key ∧ FitsU32 row.value := by
  constructor
  · intro data
    constructor
    · exact txData_returns.whole
    · exact fun fits => (txData_frames fits).decodes.whole
  · intro row
    constructor
    · exact exampleRow_returns.whole
    · exact fun ⟨key, value⟩ => deserialize_serialize key value

end

theorem four_gibibytes_vanish :
    (@TxData.deserialize ⟨true⟩).run' (TxData.mk [⟨0, [⟨List.replicate (2 ^ 32) 0⟩]⟩] [] []).serialize =
      .ok ⟨[⟨0, [⟨[]⟩]⟩], [], []⟩ ∧
      TxData.mk [⟨0, [⟨List.replicate (2 ^ 32) 0⟩]⟩] [] [] ≠ ⟨[⟨0, [⟨[]⟩]⟩], [], []⟩ ∧
      @deserializeExampleRow ⟨true⟩ (serializeExampleRow ⟨zeros (2 ^ 32), ""⟩) = .ok ⟨"", ""⟩ ∧
      ExampleRow.mk (zeros (2 ^ 32)) "" ≠ ⟨"", ""⟩ := by
  let : BuildProfile := ⟨true⟩
  refine ⟨zeros_wrap (by decide) rfl, ?_, zero_key_wraps (by decide) rfl, ?_⟩
  · intro same
    have lengths :=
      congrArg (fun data => data.inserts.map fun list => list.inserts.map fun row => row.bytes.length) same
    simp only [List.map_cons, List.map_nil, List.length_replicate] at lengths
    exact absurd lengths (by decide)
  · intro same
    have lengths := congrArg (fun row => (utf8 row.key).length) same
    simp only [utf8_zeros, List.length_replicate] at lengths
    exact absurd lengths (by decide)

end OmniSpacetimeDb.Proofs.Serialization
