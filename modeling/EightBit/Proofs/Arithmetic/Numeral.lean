import EightBit.Arithmetic.Decimal
import Mathlib.Data.Nat.Digits.Defs

/-
Numbers that are longer than a byte, written with one digit in each byte and the least significant
byte first. A byte is a digit to the base 256, or one to the base 100 if both its halves are decimal
digits. In two's complement the upper half of the numbers to the base 256 is negative.
-/

namespace EightBit.Arithmetic

/-- A way to write digits as bytes. -/
structure Numeral where
  base : Nat
  /-- The digit that a byte stands for, if it stands for one. -/
  digit : UInt8 → Nat
  Valid : UInt8 → Prop
  one_lt_base : 1 < base
  digit_lt : ∀ {byte}, Valid byte → digit byte < base
  digit_inj : ∀ {first second}, Valid first → Valid second → digit first = digit second →
    first = second

namespace Numeral

/-- Every byte is a digit. -/
def binary : Numeral where
  base := 256
  digit := UInt8.toNat
  Valid _ := True
  one_lt_base := by decide
  digit_lt _ := UInt8.toNat_lt _
  digit_inj _ _ := UInt8.toNat_inj.mp

/-- A byte is made of its two halves. -/
theorem halves (byte : UInt8) : 16 * highDigit byte + lowDigit byte = byte.toNat :=
  Nat.div_add_mod byte.toNat 16

/-- Two decimal digits, the higher one in the upper half of the byte. -/
def packedDecimal : Numeral where
  base := 100
  digit byte := 10 * highDigit byte + lowDigit byte
  Valid byte := highDigit byte ≤ 9 ∧ lowDigit byte ≤ 9
  one_lt_base := by decide
  digit_lt valid := by omega
  digit_inj := by
    intro first second left right same
    apply UInt8.toNat_inj.mp
    rw [← halves first, ← halves second]
    omega

variable {numeral : Numeral}

/-- The number that the bytes stand for, with the lowest byte first. -/
def number (numeral : Numeral) (bytes : List UInt8) : Nat :=
  Nat.ofDigits numeral.base (bytes.map numeral.digit)

/-- All bytes are digits of the numeral system. -/
def Written (numeral : Numeral) (bytes : List UInt8) : Prop := ∀ byte ∈ bytes, numeral.Valid byte

@[simp] theorem number_nil (numeral : Numeral) : numeral.number [] = 0 := rfl

/-- Every further byte is worth the base times as much. -/
@[simp] theorem number_cons (numeral : Numeral) (byte : UInt8) (bytes : List UInt8) :
    numeral.number (byte :: bytes) = numeral.digit byte + numeral.base * numeral.number bytes :=
  rfl

theorem written_nil (numeral : Numeral) : numeral.Written [] := nofun

/-- A number is well written if its first byte is and the rest is. -/
theorem written_cons {byte : UInt8} {bytes : List UInt8} :
    numeral.Written (byte :: bytes) ↔ numeral.Valid byte ∧ numeral.Written bytes :=
  List.forall_mem_cons

/-- Every digit is less than the base. -/
theorem Written.digit_lt {bytes : List UInt8} (written : numeral.Written bytes) :
    ∀ digit ∈ bytes.map numeral.digit, digit < numeral.base := by
  intro digit member
  obtain ⟨byte, inside, rfl⟩ := List.mem_map.mp member
  exact numeral.digit_lt (written byte inside)

/-- So many digits stand for less than that power of the base. -/
theorem number_lt {bytes : List UInt8} (written : numeral.Written bytes) :
    numeral.number bytes < numeral.base ^ bytes.length := by
  have below := Nat.ofDigits_lt_base_pow_length numeral.one_lt_base written.digit_lt
  rwa [List.length_map] at below

/-- A number is written in one way with a given number of bytes. -/
theorem number_inj {first second : List UInt8} (left : numeral.Written first)
    (right : numeral.Written second) (length : first.length = second.length)
    (same : numeral.number first = numeral.number second) : first = second := by
  have digits : first.map numeral.digit = second.map numeral.digit :=
    Nat.ofDigits_inj_of_len_eq numeral.one_lt_base (by simp [length]) left.digit_lt
      right.digit_lt same
  clear length same
  induction first generalizing second with
  | nil => exact (List.map_eq_nil_iff.mp digits.symm).symm
  | cons byte bytes ih =>
      obtain ⟨other, others, rfl, head, tail⟩ := List.map_eq_cons_iff.mp digits.symm
      obtain ⟨leftByte, leftBytes⟩ := written_cons.mp left
      obtain ⟨rightByte, rightBytes⟩ := written_cons.mp right
      rw [numeral.digit_inj leftByte rightByte head.symm, ih leftBytes rightBytes tail.symm]

theorem binary_cons (byte : UInt8) (bytes : List UInt8) :
    binary.number (byte :: bytes) = byte.toNat + 256 * binary.number bytes := rfl

/-- Every byte is a binary digit. -/
theorem written_binary (bytes : List UInt8) : binary.Written bytes := fun _ _ => trivial

/-- The bytes are the lowest digits of a number, which may be larger or negative. -/
structure Totals (numeral : Numeral) (size : Nat) (total : Int) (bytes : List UInt8) : Prop where
  length : bytes.length = size
  written : numeral.Written bytes
  number : (numeral.number bytes : Int) = total % (numeral.base ^ size : Nat)

end Numeral

open Numeral

/-- The bytes read with a sign. -/
def signed (bytes : List UInt8) : Int := Int.bmod (binary.number bytes) (256 ^ bytes.length)

/-- The numbers with a sign that so many bytes can hold. -/
def Fits (size : Nat) (total : Int) : Prop :=
  -((256 ^ size : Nat) : Int) ≤ 2 * total ∧ 2 * total < (256 ^ size : Nat)

/-- Numbers of at least one byte are even in number, so as many are negative as are not. -/
theorem exists_half {size : Nat} (positive : 0 < size) : ∃ half, 256 ^ size = 2 * half := by
  obtain ⟨fewer, rfl⟩ := Nat.exists_eq_add_one.mpr positive
  exact ⟨128 * 256 ^ fewer, by rw [pow_succ]; omega⟩

/-- The balanced remainder of a number below an even modulus subtracts the modulus from the upper
half. -/
theorem bmod_even {value half : Nat} (below : value < 2 * half) :
    Int.bmod value (2 * half) = if value < half then (value : Int) else value - 2 * half := by
  rw [Int.bmod_def, Int.emod_eq_of_lt (by omega) (by omega)]
  split <;> split <;> omega

/-- A single byte is read in two's complement. -/
theorem signed_singleton (byte : UInt8) :
    signed [byte] = if byte.toNat < 128 then (byte.toNat : Int) else byte.toNat - 256 := by
  have below : binary.number [byte] < 2 * 128 := by
    rw [binary_cons, number_nil]
    exact byte.toNat_lt
  exact bmod_even below

/-- Only the most significant byte has a sign. -/
theorem signed_cons (byte : UInt8) {rest : List UInt8} (more : rest ≠ []) :
    signed (byte :: rest) = byte.toNat + 256 * signed rest := by
  have digit := byte.toNat_lt
  have below : binary.number rest < 256 ^ rest.length := number_lt (written_binary rest)
  obtain ⟨half, even⟩ := exists_half (List.length_pos_iff.mpr more)
  have whole : 256 ^ (byte :: rest).length = 2 * (256 * half) := by
    rw [List.length_cons, pow_succ, even]
    omega
  rw [even] at below
  rw [signed, signed, whole, even, binary_cons, bmod_even below, bmod_even (by omega)]
  split <;> split <;> omega

/-- The complement of a byte counts down from the largest one. -/
theorem toNat_complement (byte : UInt8) : (~~~byte).toNat = 255 - byte.toNat := UInt8.toNat_not byte

/-- Complementing all bytes of a signed number reflects it about minus one half. -/
theorem signed_complement (bytes : List UInt8) (some : bytes ≠ []) :
    signed (bytes.map (~~~·)) = -1 - signed bytes := by
  induction bytes with
  | nil => exact absurd rfl some
  | cons byte rest ih =>
      have below := byte.toNat_lt
      by_cases more : rest = []
      · subst more
        rw [List.map_singleton, signed_singleton, signed_singleton, toNat_complement]
        split <;> split <;> omega
      · have mapped : rest.map (~~~·) ≠ [] := by simpa using more
        rw [List.map_cons, signed_cons byte more, signed_cons _ mapped, ih more, toNat_complement]
        omega

/-- A digit below the others makes no difference to whether the number fits. -/
theorem fits_succ {size digit : Nat} {total : Int} (positive : 0 < size) (below : digit < 256) :
    Fits (size + 1) (digit + 256 * total) ↔ Fits size total := by
  obtain ⟨half, even⟩ := exists_half positive
  rw [Fits, Fits, pow_succ, even]
  omega

end EightBit.Arithmetic
