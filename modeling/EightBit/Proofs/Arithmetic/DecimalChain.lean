import EightBit.Proofs.Arithmetic.Chain

/-
Decimal arithmetic on packed numbers of any length. Each half of a byte is corrected by itself, and
together they are exact; the carry of a subtraction is right as well, although it is that of the
binary one, because packed bytes come in the same order as the numbers that they stand for.
-/

namespace EightBit

open Arithmetic Numeral

namespace Arithmetic

/-- The lower half of a packed byte is the lower digit. -/
@[simp] theorem lowDigit_ofDigits (high low : Nat) : lowDigit (ofDigits high low) = low % 16 := by
  rw [lowDigit, ofDigits, UInt8.toNat_ofNat']
  omega

/-- The upper half of a packed byte is the upper digit. -/
@[simp] theorem highDigit_ofDigits (high low : Nat) :
    highDigit (ofDigits high low) = high % 16 := by
  rw [highDigit, ofDigits, UInt8.toNat_ofNat']
  omega

/-- The corrected sum of two decimal digits and a carry: one decimal digit, and a carry of ten. -/
theorem correct_digit {sum : Nat} (small : sum ≤ 19) :
    correct sum % 16 ≤ 9 ∧ correct sum % 16 + 10 * (decide (15 < correct sum)).toNat = sum := by
  rw [correct]
  split
  · simp only [show 15 < sum + 6 by omega, decide_true, Bool.toNat_true]
    omega
  · simp only [show ¬15 < sum by omega, decide_false, Bool.toNat_false]
    omega

/-- The corrected difference of two decimal digits and a borrow: one decimal digit, and ten that are
borrowed. -/
theorem borrow_digit {difference : Int} (above : -10 ≤ difference) (small : difference ≤ 9) :
    ((if difference < 0 then difference - 6 else difference) % 16).toNat % 16 ≤ 9 ∧
      ((((if difference < 0 then difference - 6 else difference) % 16).toNat % 16 : Nat) : Int) =
        difference + 10 * (decide (difference < 0)).toNat := by
  split
  · simp only [*, decide_true, Bool.toNat_true]
    omega
  · simp only [*, decide_false, Bool.toNat_false]
    omega

/-- Two packed bytes and a carry add up to a packed byte and a carry that is worth a hundred. -/
theorem addDecimal_digit {register value : UInt8} (left : packedDecimal.Valid register)
    (right : packedDecimal.Valid value) (carry : Bool) :
    packedDecimal.Valid (addDecimal register value carry).result ∧
      packedDecimal.digit (addDecimal register value carry).result +
          100 * (addDecimal register value carry).carry.toNat =
        packedDecimal.digit register + packedDecimal.digit value + carry.toNat := by
  obtain ⟨leftHigh, leftLow⟩ := left
  obtain ⟨rightHigh, rightLow⟩ := right
  have one := carry.toNat_le
  obtain ⟨low, lowSum⟩ := correct_digit
    (show lowDigit register + lowDigit value + carry.toNat ≤ 19 by omega)
  generalize handed : decide (15 < correct (lowDigit register + lowDigit value + carry.toNat)) =
    half at lowSum
  have bit := half.toNat_le
  obtain ⟨high, highSum⟩ := correct_digit
    (show highDigit register + highDigit value + half.toNat ≤ 19 by omega)
  simp only [addDecimal, packedDecimal, handed, lowDigit_ofDigits, highDigit_ofDigits]
  omega

/-- The binary subtraction of packed bytes borrows exactly if the decimal one does. -/
theorem subtract_carry {register value : UInt8} (left : packedDecimal.Valid register)
    (right : packedDecimal.Valid value) (carry : Bool) :
    (subtract register value carry).carry = true ↔
      packedDecimal.digit value + (!carry).toNat ≤ packedDecimal.digit register := by
  obtain ⟨leftHigh, leftLow⟩ := left
  obtain ⟨rightHigh, rightLow⟩ := right
  rw [subtract, add, decide_eq_true_iff, toNat_complement, ← halves register, ← halves value]
  simp only [packedDecimal]
  cases carry <;> simp <;> omega

/-- The difference of packed bytes is a packed byte, and a missing carry is worth a hundred. -/
theorem subtractDecimal_digit {register value : UInt8} (left : packedDecimal.Valid register)
    (right : packedDecimal.Valid value) (carry : Bool) :
    packedDecimal.Valid (subtractDecimal register value carry).result ∧
      packedDecimal.digit (subtractDecimal register value carry).result +
          packedDecimal.digit value + (!carry).toNat =
        packedDecimal.digit register +
          100 * (!(subtractDecimal register value carry).carry).toNat := by
  have noBorrow := subtract_carry left right carry
  obtain ⟨leftHigh, leftLow⟩ := left
  obtain ⟨rightHigh, rightLow⟩ := right
  have one := (!carry).toNat_le
  generalize low : (lowDigit register : Int) - lowDigit value - (!carry).toNat = lowest
  obtain ⟨lowDecimal, lowRest⟩ :=
    borrow_digit (show -10 ≤ lowest by omega) (show lowest ≤ 9 by omega)
  have half := (decide (lowest < 0)).toNat_le
  generalize high : (highDigit register : Int) - highDigit value - (decide (lowest < 0)).toNat =
    highest
  obtain ⟨highDecimal, highRest⟩ :=
    borrow_digit (show -10 ≤ highest by omega) (show highest ≤ 9 by omega)
  have borrows : (subtract register value carry).carry = !decide (highest < 0) := by
    simp only [packedDecimal] at noBorrow
    rw [Bool.eq_iff_iff, noBorrow, Bool.not_eq_true', decide_eq_false_iff_not]
    omega
  simp only [subtractDecimal, packedDecimal, low, high, borrows, lowDigit_ofDigits,
    highDigit_ofDigits, Bool.not_not]
  omega

end Arithmetic

namespace Registers

/-- Decimal additions are exact on packed bytes. -/
theorem exact_addDecimal : Exact packedDecimal true 1 carried addToA where
  mode registers value := keepSum_decimal ..
  valid := by
    intro registers value mode left right
    simp only [addToA, mode, if_true, keepSum_a]
    exact (addDecimal_digit left right registers.p.carry).1
  digit := by
    intro registers value mode left right
    obtain ⟨_, digit⟩ := addDecimal_digit left right registers.p.carry
    simp only [addToA, mode, if_true, keepSum_a, keepSum_carry, carried]
    change _ + (100 : Int) * _ = _
    omega

/-- Decimal subtractions are exact on packed bytes. -/
theorem exact_subtractDecimal : Exact packedDecimal true (-1) borrowed subtractFromA where
  mode registers value := keepSum_decimal ..
  valid := by
    intro registers value mode left right
    simp only [subtractFromA, mode, if_true, keepSum_a]
    exact (subtractDecimal_digit left right registers.p.carry).1
  digit := by
    intro registers value mode left right
    obtain ⟨_, digit⟩ := subtractDecimal_digit left right registers.p.carry
    simp only [subtractFromA, mode, if_true, keepSum_a, keepSum_carry, borrowed]
    change _ + (100 : Int) * _ = _
    have whole : ∀ carry : Bool, ((!carry).toNat : Int) = 1 - carry.toNat := by decide
    have into := whole registers.p.carry
    have out := whole (subtractDecimal registers.a value registers.p.carry).carry
    omega

/-- The carry of a subtraction is that of the binary one in either mode. -/
theorem subtractFromA_carry (registers : Registers) (value : UInt8) :
    (registers.subtractFromA value).p.carry =
      (subtract registers.a value registers.p.carry).carry := by
  rw [subtractFromA, keepSum_carry]
  split <;> rfl

/-- So a chain of subtractions hands on the same carries in both modes. -/
theorem chain_subtract_carry {registers other : Registers}
    (same : registers.p.carry = other.p.carry) (firsts seconds : List UInt8) :
    (registers.chain subtractFromA firsts seconds).2.p.carry =
      (other.chain subtractFromA firsts seconds).2.p.carry := by
  induction firsts generalizing registers other seconds with
  | nil => exact same
  | cons first firsts ih =>
      cases seconds with
      | nil => exact same
      | cons second seconds =>
          rw [chain_cons, chain_cons]
          apply ih
          rw [subtractFromA_carry, subtractFromA_carry, same]

end Registers

/-- In decimal mode chains are exact on packed numbers, and leave packed numbers, although the carry
of a subtraction is the same as out of decimal mode. -/
theorem decimal_chains_are_exact {registers : Registers} (mode : registers.p.decimal = true)
    {firsts seconds : List UInt8} (same : firsts.length = seconds.length)
    (left : packedDecimal.Written firsts) (right : packedDecimal.Written seconds) :
    ExactChains packedDecimal registers firsts seconds ∧
      (registers.chain Registers.subtractFromA firsts seconds).2.p.carry =
        ((registers.setFlag .decimal false).chain Registers.subtractFromA firsts
          seconds).2.p.carry := by
  have adds := Registers.exact_addDecimal
  have subtracts := Registers.exact_subtractDecimal
  rw [← mode] at adds subtracts
  have carries : registers.p.carry = (registers.setFlag .decimal false).p.carry := rfl
  exact ⟨exactChains adds subtracts same left right, Registers.chain_subtract_carry carries ..⟩

/-- Nine thousand nine hundred and ninety-nine, and one more as the carry that comes in. -/
theorem decimal_chains_roll_over :
    ((Registers.initial.setFlag .decimal true).setFlag .carry true).p.decimal = true ∧
      packedDecimal.Written [0x99, 0x99] ∧ packedDecimal.Written [0x00, 0x00] ∧
      packedDecimal.number [0x99, 0x99] = 9999 ∧
      (((Registers.initial.setFlag .decimal true).setFlag .carry true).chain Registers.addToA
        [0x99, 0x99] [0x00, 0x00]).1 = [0x00, 0x00] ∧
      ExactChains packedDecimal ((Registers.initial.setFlag .decimal true).setFlag .carry true)
        [0x99, 0x99] [0x00, 0x00] := by
  have nines : packedDecimal.Written [0x99, 0x99] := by
    simp [Written, packedDecimal, highDigit, lowDigit]
  have zeros : packedDecimal.Written [0x00, 0x00] := by
    simp [Written, packedDecimal, highDigit, lowDigit]
  have length : [(0x99 : UInt8), 0x99].length = [(0x00 : UInt8), 0x00].length := rfl
  exact ⟨rfl, nines, zeros, rfl, by decide, (decimal_chains_are_exact rfl length nines zeros).1⟩

end EightBit
