import OmniSpacetimeDb.Proofs.RowCodec
import OmniSpacetimeDb.Durability.ExampleDurability

/-! What is read back from a log file that ends anywhere. Each level of the
encoding is a frame: it is read back whole, and no part of it that stops short is. -/

namespace OmniSpacetimeDb.Proofs.LogRecovery
open Foundations Datastore RowCodec Varint Durability.ExampleDurability

/-- The length survives the cast to `u32`. -/
def Short {α : Type} (items : List α) : Prop := items.length < 2 ^ 32

theorem Short.length {α : Type} {items : List α} (short : Short items) :
    (UInt32.ofNat items.length).toNat = items.length :=
  UInt32.toNat_ofNat_of_lt' short

structure Fits (data : TxData) : Prop where
  inserts : Short data.inserts
  deletes : Short data.deletes
  truncs : Short data.truncs
  insertRows : ∀ list ∈ data.inserts, Short list.inserts ∧ ∀ row ∈ list.inserts, Short row.bytes
  deleteRows : ∀ list ∈ data.deletes, Short list.deletes ∧ ∀ row ∈ list.deletes, Short row.bytes

theorem toLeBytes_length (width value : Nat) : (toLeBytes width value).length = width := by
  induction width generalizing value with
  | zero => rfl
  | succ width ih => rw [toLeBytes, List.length_cons, ih]

theorem fromLe_toLe {width value : Nat} (fits : value < 256 ^ width) :
    fromLeBytes (toLeBytes width value) = value := by
  induction width generalizing value with
  | zero =>
    rw [Nat.pow_zero, Nat.lt_one_iff] at fits
    rw [fits]
    rfl
  | succ width ih =>
    have rest := ih (Nat.div_lt_of_lt_mul (Nat.pow_succ' ▸ fits))
    rw [toLeBytes, fromLeBytes, List.foldr_cons, UInt8.toNat_ofNat']
    rw [fromLeBytes] at rest
    rw [rest]
    exact Nat.mod_add_div value 256

section Frames
variable [BuildProfile]

theorem list_frames {α : Type} {serialize : α → List UInt8} {deserialize : Reader ReadError α}
    {items : List α} (short : Short items)
    (each : ∀ item ∈ items, Reader.Frames .unexpectedEof deserialize (serialize item) item) :
    Reader.Frames .unexpectedEof (deserializeList deserialize) (serializeList serialize items) items := by
  apply (readVarint_frames _).bind
  rw [short.length]
  exact Reader.Frames.times each

theorem rowData_frames {row : RowData} (short : Short row.bytes) :
    Reader.Frames .unexpectedEof deserializeRowData (serializeRowData row) row := by
  apply (readVarint_frames _).bind
  rw [short.length]
  exact (readExact_frames row.bytes).map RowData.mk

theorem insertList_frames {list : InsertList} (short : Short list.inserts)
    (rows : ∀ row ∈ list.inserts, Short row.bytes) :
    Reader.Frames .unexpectedEof deserializeInsertList (serializeInsertList list) list := by
  apply (readVarint_frames _).bind
  exact (list_frames short fun row member => rowData_frames (rows row member)).map
    (InsertList.mk list.tableId)

theorem deleteList_frames {list : DeleteList} (short : Short list.deletes)
    (rows : ∀ row ∈ list.deletes, Short row.bytes) :
    Reader.Frames .unexpectedEof deserializeDeleteList (serializeDeleteList list) list := by
  apply (readVarint_frames _).bind
  exact (list_frames short fun row member => rowData_frames (rows row member)).map
    (DeleteList.mk list.tableId)

theorem txData_frames {data : TxData} (fits : Fits data) :
    Reader.Frames .unexpectedEof TxData.deserialize data.serialize data := by
  apply (list_frames fits.inserts fun list member =>
    insertList_frames (fits.insertRows list member).1 (fits.insertRows list member).2).bind
  apply (list_frames fits.deletes fun list member =>
    deleteList_frames (fits.deleteRows list member).1 (fits.deleteRows list member).2).bind
  exact (list_frames fits.truncs fun tableId _ => readVarint_frames tableId).map
    (TxData.mk data.inserts data.deletes)

theorem entry_frames {entry : LogEntry} (fits : Fits entry.txData) :
    Reader.Frames .unexpectedEof LogEntry.deserialize entry.serialize entry := by
  have offset : UInt64.ofNat (fromLeBytes (toLeBytes 8 entry.txOffset.toNat)) = entry.txOffset := by
    rw [fromLe_toLe entry.txOffset.toNat_lt, UInt64.ofNat_toNat]
  have bytes := readExact_frames (toLeBytes 8 entry.txOffset.toNat)
  rw [toLeBytes_length] at bytes
  apply bytes.bind
  rw [offset]
  exact (txData_frames fits).map (LogEntry.mk entry.txOffset)

end Frames

section Recovery
variable [BuildProfile]

def item (entry : LogEntry) : Option (UInt64 × TxData) := some (entry.txOffset, entry.txData)

/-- Any number of calls: the entries one by one, and `None` from there on. -/
def Yields (left : List UInt8) (entries : List LogEntry) : Prop :=
  ∀ calls, nexts calls left = some
    ((entries.map item).take calls ++ List.replicate (calls - entries.length) none)

theorem yields_starved {left : List UInt8}
    (starved : LogEntry.deserialize.run left = .error .unexpectedEof) : Yields left [] := by
  intro calls
  induction calls generalizing left with
  | zero => rfl
  | succ calls ih =>
    have empty : LogEntry.deserialize.run [] = .error .unexpectedEof := rfl
    simp only [nexts, next, starved, Option.bind_eq_bind, Option.bind_some, ih empty]
    simp [List.replicate_succ]

theorem Yields.cons {left rest : List UInt8} {entry : LogEntry} {entries : List LogEntry}
    (read : LogEntry.deserialize.run left = .ok (entry, rest)) (yields : Yields rest entries) :
    Yields left (entry :: entries) := by
  intro calls
  cases calls with
  | zero => simp [nexts]
  | succ calls =>
    simp only [nexts, next, read, Option.bind_eq_bind, Option.bind_some, yields calls, List.length_cons,
      Nat.add_sub_add_right]
    rfl

theorem Yields.part {entries : List LogEntry} (fits : ∀ entry ∈ entries, Fits entry.txData)
    {part : List UInt8} (starved : LogEntry.deserialize.run part = .error .unexpectedEof) :
    Yields (entries.flatMap LogEntry.serialize ++ part) entries := by
  induction entries with
  | nil => exact yields_starved starved
  | cons entry entries ih =>
    rw [List.flatMap_cons, List.append_assoc]
    apply Yields.cons ((entry_frames (fits entry List.mem_cons_self)).decodes _)
    exact ih fun other member => fits other (List.mem_cons_of_mem _ member)

def Whole (entries : List LogEntry) (cut count : Nat) : Prop :=
  count ≤ entries.length ∧
    ∀ position ≤ entries.length, position ≤ count ↔
      ((entries.take position).flatMap LogEntry.serialize).length ≤ cut

omit [BuildProfile] in
theorem whole_cons {entry : LogEntry} {entries : List LogEntry} {cut count : Nat}
    (inside : entry.serialize.length ≤ cut) (whole : Whole entries (cut - entry.serialize.length) count) :
    Whole (entry :: entries) cut (count + 1) := by
  refine ⟨Nat.succ_le_succ whole.1, ?_⟩
  intro position within
  cases position with
  | zero => simp
  | succ position =>
    rw [Nat.succ_le_succ_iff, whole.2 position (Nat.le_of_succ_le_succ within), List.take_succ_cons,
      List.flatMap_cons, List.length_append]
    omega

omit [BuildProfile] in
theorem whole_torn {entry : LogEntry} {entries : List LogEntry} {cut : Nat}
    (torn : cut < entry.serialize.length) :
    Whole (entry :: entries) cut 0 := by
  refine ⟨Nat.zero_le _, ?_⟩
  intro position within
  cases position with
  | zero => simp
  | succ position =>
    rw [List.take_succ_cons, List.flatMap_cons, List.length_append]
    omega

/-- A log that ends anywhere is some of its entries, and part of another one or nothing. -/
theorem cut_splits {entries : List LogEntry} (fits : ∀ entry ∈ entries, Fits entry.txData) (cut : Nat) :
    ∃ count part, Whole entries cut count ∧
      (entries.flatMap LogEntry.serialize).take cut =
        (entries.take count).flatMap LogEntry.serialize ++ part ∧
      LogEntry.deserialize.run part = .error .unexpectedEof := by
  induction entries generalizing cut with
  | nil =>
    refine ⟨0, [], ⟨Nat.le_refl 0, fun position within => by simpa using within⟩, ?_, rfl⟩
    rw [List.flatMap_nil, List.take_nil]
    rfl
  | cons entry entries ih =>
    rw [List.flatMap_cons]
    by_cases inside : entry.serialize.length ≤ cut
    · obtain ⟨count, part, whole, same, starved⟩ :=
        ih (fun other member => fits other (List.mem_cons_of_mem _ member)) (cut - entry.serialize.length)
      refine ⟨count + 1, part, whole_cons inside whole, ?_, starved⟩
      rw [List.take_append, List.take_of_length_le inside, same, List.take_succ_cons,
        List.flatMap_cons, List.append_assoc]
    · have torn := Nat.lt_of_not_le inside
      refine ⟨0, entry.serialize.take cut, whole_torn torn, ?_, ?_⟩
      · exact List.take_append_of_le_length (Nat.le_of_lt torn)
      · apply (entry_frames (fits entry List.mem_cons_self)).starves
        · exact List.take_prefix cut entry.serialize
        · intro same
          have length := congrArg List.length same
          rw [List.length_take] at length
          omega

/-- However far a log file was written, reading it yields the entries that are
there in full, each as it was written, and then nothing more. -/
theorem iter_recovers_whole_entries {entries : List LogEntry}
    (fits : ∀ entry ∈ entries, Fits entry.txData) (cut : Nat) :
    ∃ count ≤ entries.length,
      (∀ position ≤ entries.length, position ≤ count ↔
        ((entries.take position).flatMap LogEntry.serialize).length ≤ cut) ∧
      ∀ calls, iter (some ((entries.flatMap LogEntry.serialize).take cut)) calls =
        some (((entries.take count).map fun entry => some (entry.txOffset, entry.txData)).take calls ++
          List.replicate (calls - count) none) := by
  obtain ⟨count, part, ⟨within, whole⟩, same, starved⟩ := cut_splits fits cut
  refine ⟨count, within, whole, ?_⟩
  intro calls
  have kept : ∀ entry ∈ entries.take count, Fits entry.txData :=
    fun entry member => fits entry (List.mem_of_mem_take member)
  have items := Yields.part kept starved calls
  rw [← same] at items
  rw [List.length_take, Nat.min_eq_left within] at items
  exact items

end Recovery

def sample : List LogEntry := [⟨0, ⟨[⟨0, [⟨[1, 2]⟩]⟩], [], []⟩⟩, ⟨1, ⟨[⟨0, [⟨[3, 4]⟩]⟩], [], []⟩⟩]

theorem sample_fits : ∀ entry ∈ sample, Fits entry.txData := by
  have row (first second : UInt8) : Fits ⟨[⟨0, [⟨[first, second]⟩]⟩], [], []⟩ := by
    constructor <;> simp [Short]
  intro entry member
  rcases List.mem_cons.mp member with rfl | member
  · exact row 1 2
  · obtain rfl := List.mem_singleton.mp member
    exact row 3 4

theorem iter_recovers_whole_entries_torn :
    @iter ⟨true⟩ (some ((sample.flatMap LogEntry.serialize).take 20)) 3 =
      some [some (0, ⟨[⟨0, [⟨[1, 2]⟩]⟩], [], []⟩), none, none] := by
  let : BuildProfile := ⟨true⟩
  obtain ⟨count, within, whole, items⟩ := iter_recovers_whole_entries sample_fits 20
  have first := (whole 1 (by decide)).mpr (by decide)
  have second := mt (whole 2 (by decide)).mp (by decide)
  obtain rfl : count = 1 := by omega
  exact items 3

end OmniSpacetimeDb.Proofs.LogRecovery
