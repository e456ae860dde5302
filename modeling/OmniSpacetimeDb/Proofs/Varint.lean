import OmniSpacetimeDb.Datastore.TxData
import Mathlib.Algebra.Ring.Nat

/-! What `write_varint` writes, `read_varint` takes back, in either build profile. -/

namespace OmniSpacetimeDb.Proofs.Varint
open Foundations Datastore

theorem low_bits (byte : UInt8) : (byte &&& 0x7F).toNat = byte.toNat % 128 := by
  rw [UInt8.toNat_and]
  exact Nat.and_two_pow_sub_one_eq_mod byte.toNat 7

private theorem continuation (value : UInt32) :
    (((value.toUInt8 &&& 0x7F) ||| 0x80) &&& 0x7F : UInt8).toNat = value.toNat % 128 ∧
      ((value.toUInt8 &&& 0x7F) ||| 0x80 : UInt8) &&& 0x80 ≠ 0 := by
  have payload : value.toUInt8 &&& 0x7F = UInt8.ofNat (value.toNat % 128) := by
    apply UInt8.toNat_inj.mp
    rw [low_bits, UInt32.toNat_toUInt8, UInt8.toNat_ofNat']
    omega
  have all : ∀ n : Fin 128, ((UInt8.ofNat n ||| 0x80) &&& 0x7F).toNat = n ∧
      (UInt8.ofNat n ||| 0x80) &&& 0x80 ≠ 0 := by decide
  rw [payload]
  exact all ⟨value.toNat % 128, by omega⟩

private theorem final (value : UInt32) (small : value.toNat < 128) :
    (value.toUInt8 &&& 0x7F).toNat = value.toNat ∧ value.toUInt8 &&& 0x80 = 0 := by
  have payload : value.toUInt8 = UInt8.ofNat value.toNat := by
    apply UInt8.toNat_inj.mp
    rw [UInt32.toNat_toUInt8, UInt8.toNat_ofNat']
  have all : ∀ n : Fin 128, (UInt8.ofNat n &&& 0x7F).toNat = n ∧ UInt8.ofNat n &&& 0x80 = 0 := by decide
  rw [payload]
  exact all ⟨value.toNat, small⟩

private theorem shifted_value (value : UInt32) : (value >>> 7).toNat = value.toNat / 128 := by
  rw [UInt32.toNat_shiftRight]
  exact Nat.shiftRight_eq_div_pow value.toNat 7

private theorem continues_iff (value : UInt32) : 0x80 ≤ value ↔ 128 ≤ value.toNat := UInt32.le_iff_toNat_le

private theorem loop_stable (rounds : Nat) (value : UInt32) (enough : value.toNat < 128 ^ (rounds + 1)) :
    writeVarintLoop (rounds + 1) value = writeVarintLoop rounds value := by
  induction rounds generalizing value with
  | zero =>
    have : ¬ 0x80 ≤ value := by rw [continues_iff]; omega
    simp [writeVarintLoop, this]
  | succ rounds ih =>
    rw [writeVarintLoop, writeVarintLoop.eq_2 value rounds, ih]
    rw [shifted_value, Nat.div_lt_iff_lt_mul (by omega), ← Nat.pow_succ]
    exact enough

private theorem loop_length {rounds places : Nat} {value : UInt32}
    (fits : value.toNat < 128 ^ (places + 1)) :
    (writeVarintLoop rounds value).length ≤ min rounds places + 1 := by
  induction rounds generalizing places value with
  | zero => simp [writeVarintLoop]
  | succ rounds ih =>
    rw [writeVarintLoop]
    split
    next more =>
      rw [continues_iff] at more
      cases places with
      | zero => omega
      | succ places =>
        have rest : (value >>> 7).toNat < 128 ^ (places + 1) := by
          rw [shifted_value, Nat.div_lt_iff_lt_mul (by omega), ← Nat.pow_succ]
          exact fits
        have shorter := ih rest
        rw [List.length_cons]
        omega
    next last => simp

/-- A value of so many digits is written in no more bytes, and no value in more than five. -/
theorem writeVarint_length {places : Nat} {value : UInt32} (fits : value.toNat < 128 ^ (places + 1)) :
    (writeVarint value).length ≤ min 4 places + 1 := loop_length fits

/-- The bound on the rounds is never met: the loop goes on for as long as that of the source. -/
theorem writeVarint_eq (value : UInt32) : writeVarint value =
    if 0x80 ≤ value then ((value.toUInt8 &&& 0x7F) ||| 0x80) :: writeVarint (value >>> 7)
    else [value.toUInt8] := by
  have bound := value.toNat_lt
  rw [writeVarint, writeVarintLoop]
  split
  next more =>
    rw [← loop_stable 3, writeVarint]
    rw [shifted_value]
    omega
  next => rfl

variable [BuildProfile]

theorem shiftLeft_returns (value : UInt32) {amount : Nat}
    (inside : BuildProfile.overflowChecks = true → amount < 32) :
    ∃ moved, shiftLeft value amount = .ok moved := by
  rw [shiftLeft]
  by_cases short : amount < 32
  · exact ⟨_, if_pos short⟩
  · rw [if_neg short, if_neg (mt inside short)]
    exact ⟨_, rfl⟩

theorem shiftLeft_panics (value : UInt32) {amount : Nat} (checks : BuildProfile.overflowChecks = true)
    (outside : ¬ amount < 32) :
    shiftLeft value amount = .error .shiftOverflow := by
  rw [shiftLeft, if_neg outside, if_pos checks]

/-- A digit that fits is added in its place. From place 32 on it is 0, wherever the shift puts it. -/
theorem shiftLeft_adds {value payload moved : UInt32} {shift : Nat} (below : value.toNat < 2 ^ shift)
    (fits : payload.toNat * 2 ^ shift < 2 ^ 32) (shifted : shiftLeft payload shift = .ok moved) :
    (value ||| moved).toNat = value.toNat + payload.toNat * 2 ^ shift := by
  rw [shiftLeft] at shifted
  split at shifted
  next inside =>
    obtain rfl := Except.ok.inj shifted
    have amount : (UInt32.ofNat shift).toNat % 32 = shift := by
      rw [UInt32.toNat_ofNat']
      omega
    rw [UInt32.toNat_or, UInt32.toNat_shiftLeft, amount, Nat.shiftLeft_eq, Nat.mod_eq_of_lt fits]
    rw [Nat.or_comm, Nat.mul_comm, ← Nat.two_pow_add_eq_or_of_lt below, Nat.add_comm]
  next outside =>
    have large := Nat.pow_le_pow_right (show 0 < 2 by omega) (Nat.le_of_not_lt outside)
    have none : payload = 0 := by
      apply UInt32.toNat_inj.mp
      apply Nat.eq_zero_of_not_pos
      intro some
      have := Nat.le_mul_of_pos_left (2 ^ shift) some
      omega
    subst none
    split at shifted
    next => contradiction
    next =>
      obtain rfl := Except.ok.inj shifted
      simp

private theorem byte_adds (value : UInt32) (byte : UInt8) (shift : Nat) (inside : shift < 32)
    (below : value.toNat < 2 ^ shift) (fits : byte.toNat * 2 ^ shift < 2 ^ 32) :
    ∃ payload, shiftLeft byte.toUInt32 shift = .ok payload ∧
      (value ||| payload).toNat = value.toNat + byte.toNat * 2 ^ shift := by
  obtain ⟨payload, moved⟩ := shiftLeft_returns byte.toUInt32 fun _ => inside
  refine ⟨payload, moved, ?_⟩
  rw [shiftLeft_adds below (by rwa [UInt8.toNat_toUInt32]) moved, UInt8.toNat_toUInt32]

private theorem loop_cons {value payload : UInt32} {byte : UInt8} {shift : Nat} (rest : List UInt8)
    (moved : shiftLeft (byte &&& 0x7F).toUInt32 shift = .ok payload) :
    readVarintLoop value shift (byte :: rest) =
      if byte &&& 0x80 = 0 then .ok (value ||| payload, rest)
      else readVarintLoop (value ||| payload) (shift + 7) rest := by
  rw [readVarintLoop, moved]
  rfl

private theorem read_last (value accumulated : UInt32) (shift : Nat) (rest : List UInt8)
    (small : value.toNat < 128) (below : accumulated.toNat < 2 ^ shift) (inside : shift < 32)
    (fits : value.toNat * 2 ^ shift < 2 ^ 32) :
    ∃ result, readVarintLoop accumulated shift (value.toUInt8 :: rest) = .ok (result, rest) ∧
      result.toNat = accumulated.toNat + value.toNat * 2 ^ shift := by
  obtain ⟨payload, last⟩ := final value small
  obtain ⟨shifted, moved, sum⟩ :=
    byte_adds accumulated (value.toUInt8 &&& 0x7F) shift inside below (by rwa [payload])
  exact ⟨accumulated ||| shifted, by rw [loop_cons rest moved, if_pos last], by rw [sum, payload]⟩

/-- The reader's accumulator holds the bits below `shift`; the writer still
holds the bits above. -/
private theorem read_write (rounds : Nat) (value accumulated : UInt32) (shift : Nat) (rest : List UInt8)
    (enough : value.toNat < 128 ^ (rounds + 1)) (below : accumulated.toNat < 2 ^ shift)
    (inside : shift < 32) (fits : value.toNat * 2 ^ shift < 2 ^ 32) :
    ∃ result, readVarintLoop accumulated shift (writeVarintLoop rounds value ++ rest) = .ok (result, rest) ∧
      result.toNat = accumulated.toNat + value.toNat * 2 ^ shift := by
  induction rounds generalizing value accumulated shift with
  | zero => exact read_last value accumulated shift rest (by omega) below inside fits
  | succ rounds ih =>
    rw [writeVarintLoop]
    split
    next more =>
      rw [continues_iff] at more
      obtain ⟨payload, continues⟩ := continuation value
      have parts : value.toNat % 128 * 2 ^ shift + value.toNat / 128 * 2 ^ (shift + 7) =
          value.toNat * 2 ^ shift := by
        have := congrArg (· * 2 ^ shift) (Nat.mod_add_div value.toNat 128)
        simp only [Nat.add_mul] at this
        rw [← this, Nat.pow_add, Nat.mul_comm (2 ^ shift), ← Nat.mul_assoc, Nat.mul_comm _ (2 ^ 7)]
      have room : shift + 7 < 32 := by
        apply Nat.lt_of_not_le
        intro large
        have := Nat.mul_le_mul more (Nat.pow_le_pow_right (show 0 < 2 by omega) (show 25 ≤ shift by omega))
        omega
      obtain ⟨shifted, moved, sum⟩ :=
        byte_adds accumulated (((value.toUInt8 &&& 0x7F) ||| 0x80) &&& 0x7F) shift inside below
        (by rw [payload]; omega)
      rw [payload] at sum
      have next : (accumulated ||| shifted).toNat < 2 ^ (shift + 7) := by
        have low := Nat.mul_le_mul_right (2 ^ shift) (show value.toNat % 128 ≤ 127 by omega)
        rw [sum, Nat.pow_add]
        omega
      obtain ⟨result, read, same⟩ := ih (value >>> 7) (accumulated ||| shifted) (shift + 7)
        (by rw [shifted_value, Nat.div_lt_iff_lt_mul (by omega), ← Nat.pow_succ]; exact enough) next room
        (by rw [shifted_value]; omega)
      refine ⟨result, ?_, by rw [same, sum, shifted_value]; omega⟩
      rw [List.cons_append, loop_cons _ moved, if_neg continues]
      exact read
    next small =>
      rw [continues_iff, Nat.not_le] at small
      exact read_last value accumulated shift rest small below inside fits

theorem readVarint_writeVarint (value : UInt32) : readVarint.Decodes (writeVarint value) value := by
  intro rest
  have bound := value.toNat_lt
  obtain ⟨result, read, same⟩ := read_write 4 value 0 0 rest (by omega) (by decide) (by decide) (by omega)
  have equal : result = value := UInt32.toNat_inj.mp (by simpa using same)
  exact equal ▸ read

omit [BuildProfile] in
private theorem cut_continues {rounds : Nat} {value : UInt32} {part : List UInt8}
    (isPart : part <+: writeVarintLoop rounds value) (short : part ≠ writeVarintLoop rounds value) :
    (∀ byte ∈ part, byte &&& 0x80 ≠ 0) ∧ part.length ≤ rounds := by
  induction rounds generalizing value part with
  | zero =>
    cases part with
    | nil => simp
    | cons byte part =>
      obtain ⟨rfl, none⟩ := List.cons_prefix_cons.mp isPart
      exact absurd (congrArg (_ :: ·) (List.prefix_nil.mp none)) short
  | succ rounds ih =>
    cases part with
    | nil => simp
    | cons byte part =>
      rw [writeVarintLoop] at isPart short
      split at isPart
      next more =>
        rw [if_pos more] at short
        obtain ⟨rfl, inside⟩ := List.cons_prefix_cons.mp isPart
        obtain ⟨continues, length⟩ := ih inside fun whole => short (congrArg _ whole)
        exact ⟨List.forall_mem_cons.mpr ⟨(continuation value).2, continues⟩, Nat.succ_le_succ length⟩
      next last =>
        rw [if_neg last] at short
        obtain ⟨rfl, none⟩ := List.cons_prefix_cons.mp isPart
        exact absurd (congrArg (_ :: ·) (List.prefix_nil.mp none)) short

/-- A reader that meets continuation bytes only asks for one more. -/
private theorem read_continues {bytes : List UInt8} (continues : ∀ byte ∈ bytes, byte &&& 0x80 ≠ 0)
    {value : UInt32} {shift : Nat} (room : shift + 7 * bytes.length ≤ 32) :
    readVarintLoop value shift bytes = .error .unexpectedEof := by
  induction bytes generalizing value shift with
  | nil => rfl
  | cons byte bytes ih =>
    rw [List.length_cons] at room
    have moved : shiftLeft (byte &&& 0x7F).toUInt32 shift = .ok _ := if_pos (by omega)
    rw [loop_cons bytes moved, if_neg (continues byte List.mem_cons_self)]
    exact ih (fun other member => continues other (List.mem_cons_of_mem _ member)) (by omega)

theorem readVarint_frames (value : UInt32) :
    Reader.Frames .unexpectedEof readVarint (writeVarint value) value where
  decodes := readVarint_writeVarint value
  starves part isPart short := by
    obtain ⟨continues, length⟩ := cut_continues isPart short
    exact read_continues continues (by omega)

end OmniSpacetimeDb.Proofs.Varint
