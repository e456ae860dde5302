import OmniSpacetimeDb.Proofs.Varint
import OmniSpacetimeDb.Foundations.Base128
import OmniSpacetimeDb.Foundations.Program
import OmniSpacetimeDb.Datastore.ExampleDatastore
import OmniSpacetimeDb.Durability.ExampleDurability
import Mathlib.Data.Nat.Bitwise

/-! What the decoders make of any bytes. `read_varint` adds up the digits of the
number that is spelled, each one shifted into its place, as long as 32 bits hold them. -/

namespace OmniSpacetimeDb.Proofs.Decoding
open Foundations Base128 Datastore Varint Durability.ExampleDurability

theorem last_iff (byte : UInt8) : byte &&& 0x80 = 0 ↔ byte.toNat < 128 := by
  have bound := byte.toNat_lt
  have bit : byte.toNat &&& 2 ^ 7 = 0 ↔ byte.toNat.testBit 7 = false := by
    rw [Nat.and_two_pow]
    cases byte.toNat.testBit 7 <;> simp
  rw [← UInt8.toNat_inj, UInt8.toNat_and]
  apply bit.trans
  rw [Nat.testBit_eq_decide_div_mod_eq, decide_eq_false_iff_not]
  omega

theorem payload_eq (byte : UInt8) : (byte &&& 0x7F).toUInt32 = UInt32.ofNat (byte.toNat % 128) := by
  apply UInt32.toNat_inj.mp
  rw [UInt8.toNat_toUInt32, low_bits, UInt32.toNat_ofNat']
  omega

theorem short_iff (bytes : List UInt8) :
    (∀ digit ∈ digits 0 bytes, digit.2 < 32) ↔ (spelling bytes).length ≤ 5 := by
  rw [digits_inside, ← List.length_eq_zero_iff]
  omega

section Read
variable [BuildProfile]

def accumulate (value : UInt32) (digits : List (Nat × Nat)) : Except ReadError UInt32 :=
  digits.foldlM (fun value digit => do
    let payload ← shiftLeft (UInt32.ofNat digit.1) digit.2
    return value ||| payload) value

theorem accumulate_cons (value : UInt32) (digit : Nat × Nat) (digits : List (Nat × Nat)) :
    accumulate value (digit :: digits) =
      shiftLeft (UInt32.ofNat digit.1) digit.2 >>= fun payload =>
        accumulate (value ||| payload) digits := by
  simp only [accumulate, List.foldlM_cons, bind_assoc, pure_bind]

/-- These are the shifts of the loop, and the order in which it makes them. -/
theorem readVarintLoop_folds (value : UInt32) (shift : Nat) (bytes : List UInt8) :
    readVarintLoop value shift bytes = (do
      let value ← accumulate value (digits shift bytes)
      if Ends bytes then return (value, bytes.drop (spelling bytes).length) else throw .unexpectedEof) := by
  induction bytes generalizing value shift with
  | nil => rfl
  | cons byte bytes ih =>
    rw [readVarintLoop, digits, accumulate_cons, payload_eq, bind_assoc]
    apply bind_congr
    intro payload
    by_cases last : byte.toNat < 128
    · have ends : Ends (byte :: bytes) := ⟨byte, List.mem_cons_self, last⟩
      rw [if_pos ((last_iff byte).mpr last), if_pos last, spelling_last last]
      simp only [if_pos ends]
      rfl
    · rw [if_neg (mt (last_iff byte).mp last), if_neg last, spelling_more last, ih]
      simp only [ends_more last, List.length_cons, List.drop_succ_cons]

theorem accumulate_returns {digits : List (Nat × Nat)}
    (inside : BuildProfile.overflowChecks = true → ∀ digit ∈ digits, digit.2 < 32) (value : UInt32) :
    ∃ result, accumulate value digits = .ok result := by
  induction digits generalizing value with
  | nil => exact ⟨value, rfl⟩
  | cons digit digits ih =>
    obtain ⟨moved, shifted⟩ :=
      shiftLeft_returns (UInt32.ofNat digit.1) fun checks => inside checks digit List.mem_cons_self
    rw [accumulate_cons, shifted]
    exact ih (fun checks other member => inside checks other (List.mem_cons_of_mem digit member))
      (value ||| moved)

theorem accumulate_panics {digits : List (Nat × Nat)} (checks : BuildProfile.overflowChecks = true)
    (outside : ¬ ∀ digit ∈ digits, digit.2 < 32) (value : UInt32) :
    accumulate value digits = .error .shiftOverflow := by
  induction digits generalizing value with
  | nil => exact absurd (fun _ member => absurd member List.not_mem_nil) outside
  | cons digit digits ih =>
    rw [List.forall_mem_cons, not_and] at outside
    rw [accumulate_cons]
    by_cases first : digit.2 < 32
    · obtain ⟨moved, shifted⟩ := shiftLeft_returns (UInt32.ofNat digit.1) fun _ => first
      rw [shifted]
      exact ih (outside first) (value ||| moved)
    · rw [shiftLeft_panics _ checks first]
      rfl

theorem accumulate_adds {bytes : List UInt8} {value result : UInt32} {shift : Nat}
    (below : value.toNat < 2 ^ shift) (fits : number (spelling bytes) * 2 ^ shift < 2 ^ 32)
    (returned : accumulate value (digits shift bytes) = .ok result) :
    result.toNat = value.toNat + number (spelling bytes) * 2 ^ shift := by
  have each := (digits_fit 32 shift bytes).mpr fits
  induction bytes generalizing value shift with
  | nil =>
    obtain rfl := Except.ok.inj returned
    simp [spelling, number]
  | cons byte bytes ih =>
    have digit := Nat.mod_lt byte.toNat (show 0 < 128 by omega)
    have payload : (UInt32.ofNat (byte.toNat % 128)).toNat = byte.toNat % 128 :=
      UInt32.toNat_ofNat_of_lt' (digit.trans (by decide))
    rw [digits, List.forall_mem_cons] at each
    rw [digits, accumulate_cons] at returned
    cases shifted : shiftLeft (UInt32.ofNat (byte.toNat % 128)) shift with
    | error error =>
      rw [shifted] at returned
      contradiction
    | ok moved =>
      rw [shifted] at returned
      have sum := shiftLeft_adds below (payload.symm ▸ each.1) shifted
      rw [payload] at sum
      by_cases last : byte.toNat < 128
      · rw [if_pos last] at returned
        obtain rfl := Except.ok.inj returned
        rw [spelling_last last, sum, number, number, Nat.mul_zero, Nat.add_zero]
      · rw [if_neg last] at returned each
        have next : (value ||| moved).toNat < 2 ^ (shift + 7) := by
          have low := Nat.mul_le_mul_right (2 ^ shift) (show byte.toNat % 128 ≤ 127 by omega)
          rw [sum, Nat.pow_add]
          omega
        have later := ih next ((digits_fit 32 _ bytes).mp each.2) returned each.2
        rw [later, sum, spelling_more last, number, Nat.add_mul, next_place, Nat.add_assoc]

theorem readVarint_panics {bytes : List UInt8} (checks : BuildProfile.overflowChecks = true)
    (long : ¬ (spelling bytes).length ≤ 5) :
    readVarint.run bytes = .error .shiftOverflow := by
  have panics := accumulate_panics checks (mt (short_iff bytes).mp long) 0
  apply (readVarintLoop_folds 0 0 bytes).trans
  rw [panics]
  rfl

theorem readVarint_accumulates {bytes : List UInt8}
    (short : BuildProfile.overflowChecks = true → (spelling bytes).length ≤ 5) :
    ∃ value, accumulate 0 (digits 0 bytes) = .ok value ∧
      readVarint.run bytes = if Ends bytes then .ok (value, bytes.drop (spelling bytes).length)
        else .error .unexpectedEof := by
  obtain ⟨value, returned⟩ := accumulate_returns (fun checks => (short_iff bytes).mpr (short checks)) 0
  refine ⟨value, returned, ?_⟩
  apply (readVarintLoop_folds 0 0 bytes).trans
  rw [returned]
  rfl

/-- The value that is read is the number that is spelled by the bytes that it took. -/
def ReadsSpelled (bytes : List UInt8) : Prop :=
  ∀ value rest, readVarint.run bytes = .ok (value, rest) →
    bytes = spelling bytes ++ rest ∧ value.toNat = number (spelling bytes)

/-- A number that ends fits, and the check of the shift does not meet a sixth byte. -/
structure Legible (bytes : List UInt8) : Prop where
  fits : Ends bytes → number (spelling bytes) < 2 ^ 32
  short : BuildProfile.overflowChecks = true → (spelling bytes).length ≤ 5

theorem Legible.run {bytes : List UInt8} (legible : Legible bytes) : readVarint.run bytes =
    if Ends bytes then .ok (UInt32.ofNat (number (spelling bytes)), bytes.drop (spelling bytes).length)
    else .error .unexpectedEof := by
  obtain ⟨value, returned, run⟩ := readVarint_accumulates legible.short
  rw [run]
  by_cases ends : Ends bytes
  · have fits := legible.fits ends
    have sum := accumulate_adds (Nat.zero_lt_one) (by rwa [Nat.pow_zero, Nat.mul_one]) returned
    have same : value = UInt32.ofNat (number (spelling bytes)) := by
      apply UInt32.toNat_inj.mp
      rw [sum, UInt32.toNat_ofNat_of_lt' fits, UInt32.toNat_zero, Nat.zero_add, Nat.pow_zero, Nat.mul_one]
    rw [same]
  · rw [if_neg ends, if_neg ends]

theorem legible_iff (bytes : List UInt8) :
    readVarint.run bytes ≠ .error .shiftOverflow ∧ ReadsSpelled bytes ↔ Legible bytes := by
  constructor
  · intro ⟨survives, reads⟩
    have short : BuildProfile.overflowChecks = true → (spelling bytes).length ≤ 5 := by
      intro checks
      exact Decidable.byContradiction fun long => survives (readVarint_panics checks long)
    refine ⟨?_, short⟩
    intro ends
    obtain ⟨value, returned, run⟩ := readVarint_accumulates short
    rw [if_pos ends] at run
    rw [← (reads value _ run).2]
    exact value.toNat_lt
  · intro legible
    constructor
    · rw [legible.run]
      split <;> nofun
    · intro value rest returned
      rw [legible.run] at returned
      by_cases ends : Ends bytes
      · rw [if_pos ends] at returned
        obtain ⟨rfl, rfl⟩ := Prod.mk.inj (Except.ok.inj returned)
        exact ⟨(spelling_drop bytes).symm, UInt32.toNat_ofNat_of_lt' (legible.fits ends)⟩
      · rw [if_neg ends] at returned
        contradiction

/-- The shifts stay within the 32 bits, and so does every digit that they move. -/
structure Represents (bytes : List UInt8) : Prop where
  survives : readVarint.run bytes ≠ .error .shiftOverflow
  reads : ReadsSpelled bytes
  inside : ∀ digit ∈ digits 0 bytes, digit.2 < 32
  kept : ∀ digit ∈ digits 0 bytes, digit.1 * 2 ^ digit.2 < 2 ^ 32

theorem represents_iff (bytes : List UInt8) :
    Represents bytes ↔ (spelling bytes).length ≤ 5 ∧ number (spelling bytes) < 2 ^ 32 := by
  have whole := digits_fit 32 0 bytes
  rw [Nat.pow_zero, Nat.mul_one] at whole
  constructor
  · intro ⟨_, _, inside, kept⟩
    exact ⟨(short_iff bytes).mp inside, whole.mp kept⟩
  · intro ⟨short, fits⟩
    obtain ⟨survives, reads⟩ := (legible_iff bytes).mpr ⟨fun _ => fits, fun _ => short⟩
    exact ⟨survives, reads, (short_iff bytes).mpr short, whole.mpr fits⟩

end Read

section Decoders

/-- Takes the number that is spelled, or nothing. -/
def spelled : Reader ReadError UInt32 := fun bytes =>
  if Ends bytes then
    if number (spelling bytes) < 2 ^ 32 then
      .ok (UInt32.ofNat (number (spelling bytes)), bytes.drop (spelling bytes).length)
    else .error (.invalidData "")
  else .error .unexpectedEof

abbrev Decoder (α : Type) := Program ReadError UInt32 α

def list {α : Type} (item : Decoder α) : Decoder (List α) := .call fun count => item.times count.toNat

def rowData : Decoder RowData :=
  .call fun length => .read (readExact length.toNat) fun buffer => .pure ⟨buffer⟩

def insertList : Decoder InsertList :=
  .call fun tableId => (list rowData).bind fun inserts => .pure { tableId, inserts }

def deleteList : Decoder DeleteList :=
  .call fun tableId => (list rowData).bind fun deletes => .pure { tableId, deletes }

def txData : Decoder TxData :=
  (list insertList).bind fun inserts => (list deleteList).bind fun deletes =>
    (list (.call .pure)).bind fun truncs =>
    .pure { inserts, deletes, truncs }

def logEntry : Decoder LogEntry :=
  .read (readExact 8) fun bytes => txData.bind fun txData =>
    .pure { txOffset := UInt64.ofNat (fromLeBytes bytes), txData }

def exampleRow : Decoder ExampleRow :=
  .call fun keyLen => .read (readExact keyLen.toNat) fun keyBytes =>
    .read (decodeUtf8 keyBytes "Invalid UTF-8 for key") fun key =>
    .call fun valueLen => .read (readExact valueLen.toNat) fun valueBytes =>
      .read (decodeUtf8 valueBytes "Invalid UTF-8 for value") fun value => .pure { key, value }

theorem readExact_leaves (length : Nat) (bytes : List UInt8) :
    (readExact length).run bytes ≠ .error .shiftOverflow := by
  simp only [StateT.run, readExact]
  split <;> simp

theorem decodeUtf8_leaves (text : List UInt8) (message : String) (bytes : List UInt8) :
    (decodeUtf8 text message).run bytes ≠ .error .shiftOverflow := by
  rw [decodeUtf8]
  split
  next =>
    intro failed
    contradiction
  next => exact fun failed => ReadError.noConfusion (Except.error.inj failed)

theorem list_leaves {α : Type} {item : Decoder α} (leaves : item.Leaves .shiftOverflow) :
    (list item).Leaves .shiftOverflow :=
  fun count => leaves.times count.toNat

theorem rowData_leaves : rowData.Leaves .shiftOverflow :=
  fun length => ⟨readExact_leaves length.toNat, fun _ => trivial⟩

theorem insertList_leaves : insertList.Leaves .shiftOverflow :=
  fun _ => (list_leaves rowData_leaves).bind fun _ => trivial

theorem deleteList_leaves : deleteList.Leaves .shiftOverflow :=
  fun _ => (list_leaves rowData_leaves).bind fun _ => trivial

theorem truncs_leave : (Program.call Program.pure : Decoder TableId).Leaves .shiftOverflow :=
  fun _ => trivial

theorem txData_leaves : txData.Leaves .shiftOverflow := by
  apply (list_leaves insertList_leaves).bind
  intro inserts
  apply (list_leaves deleteList_leaves).bind
  intro deletes
  exact (list_leaves truncs_leave).bind fun _ => trivial

theorem logEntry_leaves : logEntry.Leaves .shiftOverflow :=
  ⟨readExact_leaves 8, fun _ => txData_leaves.bind fun _ => trivial⟩

theorem exampleRow_leaves : exampleRow.Leaves .shiftOverflow := by
  intro keyLen
  refine ⟨readExact_leaves keyLen.toNat,
    fun keyBytes => ⟨decodeUtf8_leaves keyBytes _, fun key valueLen => ?_⟩⟩
  exact ⟨readExact_leaves valueLen.toNat,
    fun valueBytes => ⟨decodeUtf8_leaves valueBytes _, fun _ => trivial⟩⟩

variable [BuildProfile]

theorem list_run {α : Type} {item : Decoder α} {deserialize : Reader ReadError α}
    (same : item.run readVarint = deserialize) :
    (list item).run readVarint = deserializeList deserialize := by
  simp only [list, Program.run, Program.run_times, same]
  rfl

theorem rowData_run : rowData.run readVarint = deserializeRowData := rfl

theorem insertList_run : insertList.run readVarint = deserializeInsertList := by
  simp only [insertList, Program.run, Program.run_bind, list_run rowData_run]
  rfl

theorem deleteList_run : deleteList.run readVarint = deserializeDeleteList := by
  simp only [deleteList, Program.run, Program.run_bind, list_run rowData_run]
  rfl

theorem truncs_run : (Program.call Program.pure : Decoder TableId).run readVarint = readVarint :=
  bind_pure readVarint

theorem txData_run : txData.run readVarint = TxData.deserialize := by
  simp only [txData, Program.run, Program.run_bind, list_run insertList_run,
    list_run deleteList_run, list_run truncs_run]
  rfl

theorem logEntry_run : logEntry.run readVarint = LogEntry.deserialize := by
  simp only [logEntry, Program.run, Program.run_bind, txData_run]
  rfl

theorem exampleRow_run : exampleRow.run readVarint = readExampleRow := rfl

/-- The decoder does not panic, and takes no other length or table id than the one spelled
where it reads it. -/
structure Faithful {α : Type} (result : Except ReadError α) (program : Decoder α) (bytes : List UInt8) :
    Prop where
  survives : result ≠ .error .shiftOverflow
  reads : ∀ site ∈ program.sites readVarint bytes, ReadsSpelled site

theorem spelled_agrees {site : List UInt8} (legible : Legible site) :
    spelled.run site = readVarint.run site := by
  rw [legible.run]
  simp only [StateT.run, spelled]
  by_cases ends : Ends site
  · rw [if_pos ends, if_pos ends, if_pos (legible.fits ends)]
  · rw [if_neg ends, if_neg ends]

theorem faithful_iff {α : Type} {decoder : Reader ReadError α} {program : Decoder α}
    (same : program.run readVarint = decoder) (leaves : program.Leaves .shiftOverflow)
    (bytes : List UInt8) :
    Faithful (decoder.run' bytes) program bytes ↔ ∀ site ∈ program.sites spelled bytes, Legible site := by
  rw [Program.sites_iff (fun _ => spelled_agrees) program bytes]
  have fails := leaves.fails_iff readVarint bytes
  rw [same, ← Reader.run'_fails_iff] at fails
  constructor
  · intro ⟨survives, reads⟩ site member
    exact (legible_iff site).mp ⟨fun panics =>
      survives (fails.mpr ⟨site, member, panics⟩), reads site member⟩
  · intro legible
    constructor
    · intro panics
      obtain ⟨site, member, here⟩ := fails.mp panics
      exact ((legible_iff site).mpr (legible site member)).1 here
    · exact fun site member => ((legible_iff site).mpr (legible site member)).2

theorem decoding_represents_iff :
    (∀ bytes, Represents bytes ↔ (spelling bytes).length ≤ 5 ∧ number (spelling bytes) < 2 ^ 32) ∧
      (∀ bytes, Faithful (TxData.deserialize.run' bytes) txData bytes ↔
        ∀ site ∈ txData.sites spelled bytes, Legible site) ∧
      (∀ bytes, Faithful (LogEntry.deserialize.run' bytes) logEntry bytes ↔
        ∀ site ∈ logEntry.sites spelled bytes, Legible site) ∧
      ∀ bytes, Faithful (deserializeExampleRow bytes) exampleRow bytes ↔
        ∀ site ∈ exampleRow.sites spelled bytes, Legible site :=
  ⟨represents_iff, faithful_iff txData_run txData_leaves, faithful_iff logEntry_run logEntry_leaves,
    faithful_iff exampleRow_run exampleRow_leaves⟩

end Decoders

/-- A fifth byte loses its upper bits, a count of 2^32 reads as 0, and a sixth byte panics. -/
theorem varints_are_misread :
    (@readVarint ⟨true⟩).run [0xFF, 0xFF, 0xFF, 0xFF, 0x7F] = .ok (0xFFFFFFFF, []) ∧
      number [0xFF, 0xFF, 0xFF, 0xFF, 0x7F] = 2 ^ 35 - 1 ∧
      (@TxData.deserialize ⟨true⟩).run [0x80, 0x80, 0x80, 0x80, 0x10, 0, 0] = .ok (⟨[], [], []⟩, []) ∧
      number [0x80, 0x80, 0x80, 0x80, 0x10] = 2 ^ 32 ∧
      (@TxData.deserialize ⟨true⟩).run [0x80, 0x80, 0x80, 0x80, 0x80, 0, 0, 0] = .error .shiftOverflow ∧
      number [0x80, 0x80, 0x80, 0x80, 0x80, 0] = 0 := by
  let : BuildProfile := ⟨true⟩
  exact ⟨rfl, rfl, rfl, rfl, rfl, rfl⟩

end OmniSpacetimeDb.Proofs.Decoding
