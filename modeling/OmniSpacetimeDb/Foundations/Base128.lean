import Mathlib.Algebra.Ring.Nat

/-! Numbers in base 128, the lowest digit first. A byte below 128 is the last one
of its number; the digit of any other byte is what is left of it without 128. -/

namespace Foundations.Base128

def number : List UInt8 → Nat
  | [] => 0
  | byte :: bytes => byte.toNat % 128 + 128 * number bytes

/-- The bytes up to the first one that is the last of a number. -/
def spelling : List UInt8 → List UInt8
  | [] => []
  | byte :: bytes => if byte.toNat < 128 then [byte] else byte :: spelling bytes

/-- The digits of the spelling, each with the number of bits below it. -/
def digits (shift : Nat) : List UInt8 → List (Nat × Nat)
  | [] => []
  | byte :: bytes => (byte.toNat % 128, shift) :: if byte.toNat < 128 then [] else digits (shift + 7) bytes

def Ends (bytes : List UInt8) : Prop := ∃ byte ∈ bytes, byte.toNat < 128

instance (bytes : List UInt8) : Decidable (Ends bytes) :=
  inferInstanceAs (Decidable (∃ byte ∈ bytes, byte.toNat < 128))

section
variable {byte : UInt8} {bytes : List UInt8}

theorem spelling_last (last : byte.toNat < 128) : spelling (byte :: bytes) = [byte] := if_pos last

theorem spelling_more (more : ¬ byte.toNat < 128) : spelling (byte :: bytes) = byte :: spelling bytes :=
  if_neg more

theorem ends_more (more : ¬ byte.toNat < 128) : Ends (byte :: bytes) ↔ Ends bytes := by
  constructor
  · intro ⟨other, member, last⟩
    rcases List.mem_cons.mp member with rfl | member
    · exact absurd last more
    · exact ⟨other, member, last⟩
  · intro ⟨other, member, last⟩
    exact ⟨other, List.mem_cons_of_mem byte member, last⟩

theorem spelling_drop (bytes : List UInt8) :
    spelling bytes ++ bytes.drop (spelling bytes).length = bytes := by
  induction bytes with
  | nil => rfl
  | cons byte bytes ih =>
    rw [spelling]
    split
    · rfl
    · exact congrArg (byte :: ·) ih

theorem spelling_pos (ends : Ends bytes) : 0 < (spelling bytes).length := by
  cases bytes with
  | nil => simp [Ends] at ends
  | cons byte bytes =>
    rw [spelling]
    split <;> exact Nat.succ_pos _

theorem number_below (bytes : List UInt8) : number bytes < 128 ^ bytes.length := by
  induction bytes with
  | nil => exact Nat.one_pos
  | cons byte bytes ih =>
    have digit := Nat.mod_lt byte.toNat (show 0 < 128 by omega)
    rw [number, List.length_cons, Nat.pow_succ]
    omega

theorem next_place (value shift : Nat) : 128 * value * 2 ^ shift = value * 2 ^ (shift + 7) := by
  rw [Nat.pow_add, Nat.mul_comm (2 ^ shift), ← Nat.mul_assoc, Nat.mul_comm 128]

/-- A number keeps below a power of two if each digit does in its place: from the
second digit on there is room for one more unit, and the first is less than that. -/
theorem digits_fit (width shift : Nat) (bytes : List UInt8) :
    (∀ digit ∈ digits shift bytes, digit.1 * 2 ^ digit.2 < 2 ^ width) ↔
      number (spelling bytes) * 2 ^ shift < 2 ^ width := by
  induction bytes generalizing shift with
  | nil =>
    have zero : number (spelling []) * 2 ^ shift = 0 := Nat.zero_mul _
    exact iff_of_true nofun (zero ▸ Nat.two_pow_pos width)
  | cons byte bytes ih =>
    have below := Nat.mod_lt byte.toNat (show 0 < 128 by omega)
    by_cases last : byte.toNat < 128
    · simp [digits, spelling_last last, last, number]
    · rw [digits, if_neg last, List.forall_mem_cons, ih, spelling_more last, number,
        Nat.add_mul, next_place]
      constructor
      · intro ⟨first, rest⟩
        by_cases none : number (spelling bytes) = 0
        · rw [none, Nat.zero_mul]
          exact first
        · have inside : shift + 7 ≤ width := by
            apply Nat.le_of_lt
            apply (Nat.pow_lt_pow_iff_right (show 1 < 2 by omega)).mp
            exact Nat.lt_of_le_of_lt (Nat.le_mul_of_pos_left _ (Nat.pos_of_ne_zero none)) rest
          have parts : 2 ^ width = 2 ^ (width - (shift + 7)) * 2 ^ (shift + 7) := by
            rw [← Nat.pow_add, Nat.sub_add_cancel inside]
          rw [parts] at rest ⊢
          have room := Nat.mul_le_mul_right (2 ^ (shift + 7)) (Nat.lt_of_mul_lt_mul_right rest)
          have unit : byte.toNat % 128 * 2 ^ shift < 2 ^ (shift + 7) := by
            rw [Nat.pow_add, Nat.mul_comm]
            exact Nat.mul_lt_mul_of_pos_left below (Nat.two_pow_pos shift)
          rw [Nat.succ_mul] at room
          omega
      · intro all
        exact ⟨Nat.lt_of_le_of_lt (Nat.le_add_right _ _) all, Nat.lt_of_le_of_lt (Nat.le_add_left _ _) all⟩

theorem digits_inside (width shift : Nat) (bytes : List UInt8) :
    (∀ digit ∈ digits shift bytes, digit.2 < width) ↔
      spelling bytes = [] ∨ shift + 7 * (spelling bytes).length < width + 7 := by
  induction bytes generalizing shift with
  | nil => simp [digits, spelling]
  | cons byte bytes ih =>
    by_cases last : byte.toNat < 128
    · simp [digits, spelling_last last, last]
    · rw [digits, if_neg last, List.forall_mem_cons, ih, spelling_more last, List.length_cons]
      have short : spelling bytes = [] ↔ (spelling bytes).length = 0 := List.length_eq_zero_iff.symm
      simp only [short, List.cons_ne_nil, false_or]
      omega

end
end Foundations.Base128
