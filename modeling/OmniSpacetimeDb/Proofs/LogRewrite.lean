import OmniSpacetimeDb.Proofs.LogRecovery
import OmniSpacetimeDb.Proofs.Decoding

/-! A log file written anew from what was read of it. Whatever bytes a decoder
takes, the value it makes of them is written in no more bytes, and read back. -/

namespace OmniSpacetimeDb.Proofs.LogRewrite
open Foundations Base128 Datastore Varint LogRecovery Decoding Durability.ExampleDurability

section Decoders
variable [BuildProfile]

/-- Five bytes are enough for any value, and a number of fewer bytes has lost no bits. -/
theorem written_shorter {bytes : List UInt8} {value : UInt32} (positive : 0 < (spelling bytes).length)
    (added : accumulate 0 (digits 0 bytes) = .ok value) :
    (writeVarint value).length ≤ (spelling bytes).length := by
  have below := number_below (spelling bytes)
  by_cases long : 5 ≤ (spelling bytes).length
  · have bound := value.toNat_lt
    have short := writeVarint_length (show value.toNat < 128 ^ (4 + 1) by omega)
    omega
  · have fits : 128 ^ (spelling bytes).length ≤ 128 ^ 4 := Nat.pow_le_pow_right (by omega) (by omega)
    have same := accumulate_adds Nat.zero_lt_one (by omega) added
    rw [UInt32.toNat_zero, Nat.zero_add, Nat.pow_zero, Nat.mul_one] at same
    obtain ⟨places, count⟩ := Nat.exists_eq_succ_of_ne_zero (Nat.ne_of_gt positive)
    rw [← same, count] at below
    have short := writeVarint_length below
    omega

theorem readVarint_takes :
    readVarint.Takes fun taken value => (writeVarint value).length ≤ taken.length := by
  intro bytes value rest run
  have folds := (readVarintLoop_folds 0 0 bytes).symm.trans run
  cases added : accumulate 0 (digits 0 bytes) with
  | error error =>
    rw [added] at folds
    contradiction
  | ok sum =>
    rw [added] at folds
    by_cases ends : Ends bytes
    · simp only [if_pos ends] at folds
      obtain ⟨rfl, rfl⟩ := Prod.mk.inj (Except.ok.inj folds)
      refine ⟨spelling bytes, (spelling_drop bytes).symm, ?_⟩
      exact written_shorter (spelling_pos ends) added
    · simp only [if_neg ends] at folds
      contradiction

omit [BuildProfile] in
theorem readExact_takes (length : Nat) :
    (readExact length).Takes fun taken buffer => taken = buffer ∧ buffer.length = length := by
  intro bytes buffer rest run
  simp only [StateT.run, readExact] at run
  split at run
  next enough =>
    obtain ⟨rfl, rfl⟩ := Prod.mk.inj (Except.ok.inj run)
    exact ⟨_, (List.take_append_drop length bytes).symm, rfl, List.length_take_of_le enough⟩
  next => contradiction

theorem list_shrinks {α : Type} {valid : α → Prop} {serialize : α → List UInt8}
    {deserialize : Reader ReadError α} (each : deserialize.Shrinks valid serialize) :
    (deserializeList deserialize).Shrinks (fun items => Short items ∧ ∀ item ∈ items, valid item)
      (serializeList serialize) := by
  apply readVarint_takes.bind
  intro count taken shorter bytes items rest run
  obtain ⟨more, split, ⟨length, all⟩, shrinks⟩ := each.times count.toNat bytes items rest run
  have same : UInt32.ofNat items.length = count := by rw [length, UInt32.ofNat_toNat]
  refine ⟨more, split, ⟨?_, all⟩, ?_⟩
  · rw [Short, length]
    exact count.toNat_lt
  · rw [serializeList, same, List.length_append, List.length_append]
    exact Nat.add_le_add shorter shrinks

theorem rowData_shrinks : deserializeRowData.Shrinks (fun row => Short row.bytes) serializeRowData := by
  apply readVarint_takes.bind
  intro length taken shorter
  apply (readExact_takes length.toNat).map
  rintro more buffer ⟨rfl, count⟩
  have same : UInt32.ofNat more.length = length := by rw [count, UInt32.ofNat_toNat]
  refine ⟨?_, ?_⟩
  · change more.length < 2 ^ 32
    rw [count]
    exact length.toNat_lt
  · rw [serializeRowData, same, List.length_append, List.length_append]
    exact Nat.add_le_add_right shorter _

theorem rows_shrink {α : Type} {make : TableId → List RowData → α} {serialize : α → List UInt8}
    {valid : α → Prop}
    (writes : ∀ tableId rows, serialize (make tableId rows) =
      writeVarint tableId ++ serializeList serializeRowData rows)
    (holds : ∀ tableId rows, (Short rows ∧ ∀ row ∈ rows, Short row.bytes) → valid (make tableId rows)) :
    Reader.Shrinks (do
      let tableId ← readVarint
      let rows ← deserializeList deserializeRowData
      return make tableId rows) valid serialize := by
  apply readVarint_takes.bind
  intro tableId taken shorter
  apply (list_shrinks rowData_shrinks).map
  intro more rows ⟨short, shrinks⟩
  refine ⟨holds tableId rows short, ?_⟩
  rw [writes, List.length_append, List.length_append]
  exact Nat.add_le_add shorter shrinks

theorem insertList_shrinks : deserializeInsertList.Shrinks
    (fun list => Short list.inserts ∧ ∀ row ∈ list.inserts, Short row.bytes) serializeInsertList :=
  rows_shrink (fun _ _ => rfl) fun _ _ short => short

theorem deleteList_shrinks : deserializeDeleteList.Shrinks
    (fun list => Short list.deletes ∧ ∀ row ∈ list.deletes, Short row.bytes) serializeDeleteList :=
  rows_shrink (fun _ _ => rfl) fun _ _ short => short

theorem truncs_shrink : readVarint.Shrinks (fun _ => True) writeVarint := by
  intro bytes value rest run
  obtain ⟨taken, split, shorter⟩ := readVarint_takes bytes value rest run
  exact ⟨taken, split, trivial, shorter⟩

theorem txData_shrinks : TxData.deserialize.Shrinks Fits TxData.serialize := by
  apply (list_shrinks insertList_shrinks).bind
  intro inserts first ⟨⟨insertLists, insertRows⟩, shorter⟩
  apply (list_shrinks deleteList_shrinks).bind
  intro deletes second ⟨⟨deleteLists, deleteRows⟩, shrinks⟩
  apply (list_shrinks truncs_shrink).map
  intro third truncs ⟨⟨short, _⟩, fewer⟩
  refine ⟨⟨insertLists, deleteLists, short, insertRows, deleteRows⟩, ?_⟩
  simp only [TxData.serialize, List.length_append] at *
  omega

theorem entry_shrinks :
    LogEntry.deserialize.Shrinks (fun entry => Fits entry.txData) LogEntry.serialize := by
  apply (readExact_takes 8).bind
  rintro offset _ ⟨rfl, length⟩
  apply txData_shrinks.map
  intro taken txData ⟨fits, shorter⟩
  refine ⟨fits, ?_⟩
  rw [LogEntry.serialize, List.length_append, List.length_append, toLeBytes_length, length]
  exact Nat.add_le_add_left shorter 8

inductive Yielded (left : List UInt8) : Option (UInt64 × TxData) → List UInt8 → Prop
  | entry {entry : LogEntry} {rest : List UInt8}
      (read : LogEntry.deserialize.run left = .ok (entry, rest)) : Yielded left (item entry) rest
  | nothing : Yielded left none []

theorem next_cases {left rest : List UInt8} {item : Option (UInt64 × TxData)}
    (called : next left = some (item, rest)) :
    Yielded left item rest := by
  rw [next] at called
  split at called
  next entry later read =>
    cases called
    exact .entry read
  next => cases called
  next =>
    cases called
    exact .nothing

end Decoders

/-- What a program writes that copies the items it has read to a new file. -/
def rewritten (items : List (Option (UInt64 × TxData))) : List UInt8 :=
  (items.filterMap id).flatMap fun item => LogEntry.serialize ⟨item.1, item.2⟩

theorem rewritten_reads [BuildProfile] {calls : Nat} {left : List UInt8}
    {items : List (Option (UInt64 × TxData))} (read : nexts calls left = some items) :
    (∀ other, @nexts other calls (rewritten items) = some items) ∧
      (rewritten items).length ≤ left.length := by
  induction calls generalizing left items with
  | zero =>
    obtain rfl := Option.some.inj read
    exact ⟨fun _ => rfl, Nat.zero_le _⟩
  | succ calls ih =>
    obtain ⟨⟨first, rest⟩, called, made⟩ := Option.bind_eq_some_iff.mp read
    obtain ⟨others, later, made⟩ := Option.bind_eq_some_iff.mp made
    obtain rfl := Option.some.inj made
    obtain ⟨same, shorter⟩ := ih later
    cases next_cases called with
    | @entry entry _ taken =>
      obtain ⟨front, split, fits, shrinks⟩ := entry_shrinks left entry rest taken
      have whole : rewritten (item entry :: others) = entry.serialize ++ rewritten others := rfl
      rw [whole]
      constructor
      · intro other
        have again := (@entry_frames other entry fits).decodes (rewritten others)
        simp only [nexts, next, again, same, Option.bind_eq_bind, Option.bind_some]
        rfl
      · rw [split, List.length_append, List.length_append]
        exact Nat.add_le_add shrinks shorter
    | nothing =>
      have empty : rewritten others = [] := List.eq_nil_of_length_eq_zero (Nat.le_zero.mp shorter)
      have whole : rewritten (none :: others) = rewritten others := rfl
      rw [empty] at same
      rw [whole, empty]
      constructor
      · intro other
        have starved : @next other [] = some (none, []) := rfl
        simp only [nexts, starved, same, Option.bind_eq_bind, Option.bind_some]
        rfl
      · exact Nat.zero_le _

/-- Copying to a new file what has been read of a log, whatever bytes it held,
makes it no longer, and any build reads the same there. -/
theorem rewriting_keeps_items [BuildProfile] {bytes : List UInt8} {calls : Nat}
    {items : List (Option (UInt64 × TxData))} (read : iter (some bytes) calls = some items) :
    (∀ other, @iter other (some (rewritten items)) calls = some items) ∧
      (rewritten items).length ≤ bytes.length :=
  rewritten_reads read

/-- A length of 0 that was written in two bytes, and a torn entry. -/
theorem rewriting_keeps_items_padded :
    @iter ⟨false⟩ (some [0, 0, 0, 0, 0, 0, 0, 0, 0, 0, 0]) 2 = some [some (0, ⟨[], [], []⟩), none] := by
  have read : @iter ⟨true⟩ (some [0, 0, 0, 0, 0, 0, 0, 0, 0x80, 0, 0, 0, 7]) 2 =
      some [some (0, ⟨[], [], []⟩), none] := by decide
  exact (@rewriting_keeps_items ⟨true⟩ _ _ _ read).1 ⟨false⟩

end OmniSpacetimeDb.Proofs.LogRewrite
