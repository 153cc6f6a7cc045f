import EightBit.Execution.Compute
import EightBit.Proofs.Arithmetic.Numeral
import Mathlib.Tactic.LinearCombination

/-
Arithmetic on numbers of any length, byte by byte with the carry handed on. If an operation is exact
for one digit, a chain of it is exact for whole numbers, and a chain of subtractions takes back what
a chain of additions has done.
-/

namespace EightBit

open Arithmetic Numeral

namespace Registers

/-- The operation takes the accumulators and the operands in pairs. All flags, and so the carry, go
from one pair to the next. The accumulator is kept each time. -/
def chain (operation : Registers → UInt8 → Registers) (registers : Registers) :
    List UInt8 → List UInt8 → List UInt8 × Registers
  | first :: firsts, second :: seconds =>
      let after := operation { registers with a := first } second
      let (bytes, last) := chain operation after firsts seconds
      (after.a :: bytes, last)
  | _, _ => ([], registers)

variable {operation : Registers → UInt8 → Registers} {registers : Registers}

theorem chain_nil (seconds : List UInt8) :
    registers.chain operation [] seconds = ([], registers) := rfl

/-- A chain handles the lowest bytes first, and hands the carry to the rest. -/
theorem chain_cons (first second : UInt8) (firsts seconds : List UInt8) :
    registers.chain operation (first :: firsts) (second :: seconds) =
      ((operation { registers with a := first } second).a ::
          ((operation { registers with a := first } second).chain operation firsts seconds).1,
        ((operation { registers with a := first } second).chain operation firsts seconds).2) :=
  rfl

@[simp] theorem keepSum_a (registers : Registers) (sum : Sum) :
    (registers.keepSum sum).a = sum.result := rfl

@[simp] theorem keepSum_carry (registers : Registers) (sum : Sum) :
    (registers.keepSum sum).p.carry = sum.carry := rfl

/-- Keeping a sum does not leave the numeral system. -/
@[simp] theorem keepSum_decimal (registers : Registers) (sum : Sum) :
    (registers.keepSum sum).p.decimal = registers.p.decimal := rfl

/-- In decimal mode or out of it, the operation is exact for one digit: it adds or subtracts, as the
sign says, and counts both carries for what they are worth. -/
structure Exact (numeral : Numeral) (decimal : Bool) (sign : Int) (worth : Bool → Int)
    (operation : Registers → UInt8 → Registers) : Prop where
  mode : ∀ registers value, (operation registers value).p.decimal = registers.p.decimal
  valid : ∀ {registers value}, registers.p.decimal = decimal → numeral.Valid registers.a →
    numeral.Valid value → numeral.Valid (operation registers value).a
  digit : ∀ {registers value}, registers.p.decimal = decimal → numeral.Valid registers.a →
    numeral.Valid value →
      (numeral.digit (operation registers value).a : Int) +
          numeral.base * worth (operation registers value).p.carry =
        numeral.digit registers.a + sign * numeral.digit value + worth registers.p.carry

/-- A carry out of an addition is one more. -/
def carried (carry : Bool) : Int := carry.toNat

/-- A subtraction without a carry has borrowed one. -/
def borrowed (carry : Bool) : Int := carry.toNat - 1

variable {numeral : Numeral} {decimal : Bool} {sign : Int} {worth : Bool → Int}
  {firsts seconds : List UInt8}

/-- A chain of written digits leaves as many written digits. -/
theorem Exact.chain_written (exact : Exact numeral decimal sign worth operation)
    (mode : registers.p.decimal = decimal) (same : firsts.length = seconds.length)
    (left : numeral.Written firsts) (right : numeral.Written seconds) :
    (registers.chain operation firsts seconds).1.length = firsts.length ∧
      numeral.Written (registers.chain operation firsts seconds).1 := by
  induction firsts generalizing registers seconds with
  | nil => exact ⟨rfl, numeral.written_nil⟩
  | cons first firsts ih =>
      obtain ⟨second, seconds, rfl⟩ := List.exists_cons_of_length_eq_add_one same.symm
      obtain ⟨digit, digits⟩ := written_cons.mp left
      obtain ⟨other, others⟩ := written_cons.mp right
      have kept := (exact.mode { registers with a := first } second).trans mode
      obtain ⟨length, written⟩ := ih kept (Nat.succ_inj.mp same) digits others
      rw [chain_cons]
      exact ⟨congrArg (· + 1) length, written_cons.mpr ⟨exact.valid mode digit other, written⟩⟩

/-- The carry that the last digit leaves is worth one place more than the number has. -/
theorem Exact.chain_number (exact : Exact numeral decimal sign worth operation)
    (mode : registers.p.decimal = decimal) (same : firsts.length = seconds.length)
    (left : numeral.Written firsts) (right : numeral.Written seconds) :
    (numeral.number (registers.chain operation firsts seconds).1 : Int) +
        (numeral.base ^ firsts.length : Nat) *
          worth (registers.chain operation firsts seconds).2.p.carry =
      numeral.number firsts + sign * numeral.number seconds + worth registers.p.carry := by
  induction firsts generalizing registers seconds with
  | nil =>
      cases List.length_eq_zero_iff.mp same.symm
      simp [chain_nil]
  | cons first firsts ih =>
      obtain ⟨second, seconds, rfl⟩ := List.exists_cons_of_length_eq_add_one same.symm
      obtain ⟨digit, digits⟩ := written_cons.mp left
      obtain ⟨other, others⟩ := written_cons.mp right
      have kept := (exact.mode { registers with a := first } second).trans mode
      have lowest := @exact.digit { registers with a := first } second mode digit other
      have higher := ih kept (Nat.succ_inj.mp same) digits others
      simp only [chain_cons, number_cons, List.length_cons, pow_succ]
      push_cast at higher ⊢
      linear_combination lowest + numeral.base * higher

/-- The digits that a chain leaves are the lowest ones of the exact total. -/
theorem Exact.chain_totals (exact : Exact numeral decimal sign worth operation)
    (mode : registers.p.decimal = decimal) (same : firsts.length = seconds.length)
    (left : numeral.Written firsts) (right : numeral.Written seconds) :
    numeral.Totals firsts.length
      (numeral.number firsts + sign * numeral.number seconds + worth registers.p.carry)
      (registers.chain operation firsts seconds).1 := by
  obtain ⟨length, written⟩ := exact.chain_written mode same left right
  have below := number_lt written
  rw [length] at below
  refine ⟨length, written, ?_⟩
  rw [← exact.chain_number mode same left right, Int.add_mul_emod_self_left,
    Int.emod_eq_of_lt (by omega) (by omega)]

end Registers

/-- Chains of additions and subtractions are exact: the bytes are the lowest digits of the sum and
of the difference, and the carry tells whether there is more. -/
structure ExactChains (numeral : Numeral) (registers : Registers) (firsts seconds : List UInt8) :
    Prop where
  sum : numeral.Totals firsts.length
    (numeral.number firsts + numeral.number seconds + registers.p.carry.toNat)
    (registers.chain Registers.addToA firsts seconds).1
  carry : (registers.chain Registers.addToA firsts seconds).2.p.carry = true ↔
    numeral.base ^ firsts.length ≤
      numeral.number firsts + numeral.number seconds + registers.p.carry.toNat
  difference : numeral.Totals firsts.length
    (numeral.number firsts - numeral.number seconds - (1 - registers.p.carry.toNat))
    (registers.chain Registers.subtractFromA firsts seconds).1
  noBorrow : (registers.chain Registers.subtractFromA firsts seconds).2.p.carry = true ↔
    (numeral.number seconds + (1 - registers.p.carry.toNat) : Int) ≤ numeral.number firsts
  /-- With the complement of the carry, subtracting from the sum gives the first number again. -/
  undone : ∀ other : Registers, other.p.decimal = registers.p.decimal →
    other.p.carry = !registers.p.carry →
      (other.chain Registers.subtractFromA
          (registers.chain Registers.addToA firsts seconds).1 seconds).1 = firsts ∧
        (other.chain Registers.subtractFromA
            (registers.chain Registers.addToA firsts seconds).1 seconds).2.p.carry =
          !(registers.chain Registers.addToA firsts seconds).2.p.carry

namespace Registers

/-- A carry beside so many digits tells whether the total needs one more digit. -/
theorem carry_iff {digits limit : Nat} {total : Int} {carry : Bool} (below : digits < limit)
    (whole : digits + limit * (carry.toNat : Int) = total) : carry = true ↔ limit ≤ total := by
  cases carry with
  | false =>
      simp only [Bool.toNat_false, Bool.false_eq_true, false_iff] at whole ⊢
      omega
  | true =>
      simp only [Bool.toNat_true, true_iff] at whole ⊢
      omega

variable {numeral : Numeral} {registers : Registers} {firsts seconds : List UInt8}

/-- The carry behind an addition tells that the sum has one digit more. -/
theorem Exact.sum_carry (adds : Exact numeral registers.p.decimal 1 carried addToA)
    (same : firsts.length = seconds.length) (left : numeral.Written firsts)
    (right : numeral.Written seconds) :
    (registers.chain addToA firsts seconds).2.p.carry = true ↔
      numeral.base ^ firsts.length ≤
        numeral.number firsts + numeral.number seconds + registers.p.carry.toNat := by
  have totals := adds.chain_totals rfl same left right
  have below := totals.length ▸ number_lt totals.written
  have whole := adds.chain_number rfl same left right
  simp only [carried, one_mul] at whole
  rw [carry_iff below whole]
  omega

/-- The carry behind a subtraction tells that nothing had to be borrowed. -/
theorem Exact.difference_carry (subtracts : Exact numeral registers.p.decimal (-1) borrowed
      subtractFromA) (same : firsts.length = seconds.length) (left : numeral.Written firsts)
    (right : numeral.Written seconds) :
    (registers.chain subtractFromA firsts seconds).2.p.carry = true ↔
      (numeral.number seconds + (1 - registers.p.carry.toNat) : Int) ≤ numeral.number firsts := by
  have totals := subtracts.chain_totals rfl same left right
  have below := totals.length ▸ number_lt totals.written
  have whole := subtracts.chain_number rfl same left right
  simp only [borrowed, neg_mul, one_mul, mul_sub, mul_one] at whole
  -- What is borrowed counts as one more place, so that the carry is one of an addition.
  have moved : ((numeral.number (registers.chain subtractFromA firsts seconds).1 : Nat) : Int) +
      (numeral.base ^ firsts.length : Nat) *
        ((registers.chain subtractFromA firsts seconds).2.p.carry.toNat : Int) =
      numeral.number firsts - numeral.number seconds - (1 - registers.p.carry.toNat) +
        (numeral.base ^ firsts.length : Nat) := by
    omega
  rw [carry_iff below moved]
  omega

/-- From the digits of a sum, subtraction gives the first number again. It borrows exactly if the
sum needed one more digit. -/
theorem Exact.undoes (subtracts : Exact numeral registers.p.decimal (-1) borrowed subtractFromA)
    (same : firsts.length = seconds.length) (left : numeral.Written firsts)
    (right : numeral.Written seconds) {sum : List UInt8} (length : sum.length = firsts.length)
    (written : numeral.Written sum) {carry : Bool}
    (whole : (numeral.number sum : Int) + (numeral.base ^ firsts.length : Nat) * carry.toNat =
      numeral.number firsts + numeral.number seconds + (1 - registers.p.carry.toNat)) :
    (registers.chain subtractFromA sum seconds).1 = firsts ∧
      (registers.chain subtractFromA sum seconds).2.p.carry = !carry := by
  have totals := subtracts.chain_totals rfl (length.trans same) written right
  have below := number_lt left
  have sumBelow := length ▸ number_lt written
  constructor
  · apply number_inj totals.written left (totals.length.trans length)
    have rest : (numeral.number sum : Int) + -1 * numeral.number seconds +
        borrowed registers.p.carry =
          numeral.number firsts + (numeral.base ^ firsts.length : Nat) * -(carry.toNat : Int) := by
      rw [borrowed]
      linear_combination whole
    have number := totals.number
    rw [rest, length, Int.add_mul_emod_self_left, Int.emod_eq_of_lt (by omega) (by omega)] at number
    exact Int.ofNat_inj.mp number
  · rw [Bool.eq_iff_iff, subtracts.difference_carry (length.trans same) written right]
    cases carry with
    | false =>
        simp only [Bool.toNat_false, Bool.not_false, iff_true] at whole ⊢
        omega
    | true =>
        simp only [Bool.toNat_true, Bool.not_true, Bool.false_eq_true, iff_false] at whole ⊢
        omega

end Registers

open Registers in
/-- An addition and a subtraction that are exact for one digit make exact chains. -/
theorem exactChains {numeral : Numeral} {registers : Registers}
    (adds : Exact numeral registers.p.decimal 1 carried addToA)
    (subtracts : Exact numeral registers.p.decimal (-1) borrowed subtractFromA)
    {firsts seconds : List UInt8} (same : firsts.length = seconds.length)
    (left : numeral.Written firsts) (right : numeral.Written seconds) :
    ExactChains numeral registers firsts seconds := by
  have added := adds.chain_totals rfl same left right
  have taken := subtracts.chain_totals rfl same left right
  simp only [carried, one_mul] at added
  simp only [borrowed, neg_mul, one_mul] at taken
  refine ⟨added, adds.sum_carry same left right, ?_, subtracts.difference_carry same left right, ?_⟩
  · convert taken using 1
    omega
  · intro other mode complement
    have whole := adds.chain_number rfl same left right
    have borrow : (1 - (other.p.carry.toNat : Int)) = registers.p.carry.toNat := by
      rw [complement]
      cases registers.p.carry <;> rfl
    rw [← mode] at subtracts
    apply subtracts.undoes same left right added.length added.written
    rw [borrow]
    simpa [carried] using whole

end EightBit
