import EightBit.Execution.Compute

/-
Arithmetic in machine words. Each sum is formed in a word of its own width and traps where the word
is too small for it. For no operands a sum traps, so all results are those of plain arithmetic.
-/

namespace EightBit.Checked

open Arithmetic

/-- A number that has to fit an unsigned word, all of whose values are below the limit. -/
def word (limit value : Nat) : Option Nat := if value < limit then some value else none

/-- A number that has to fit a word in two's complement. -/
def signedWord (limit value : Int) : Option Int :=
  if -limit ≤ value ∧ value < limit then some value else none

/-- A value below the limit passes the check unchanged. -/
theorem word_fits {limit value : Nat} (fits : value < limit) : word limit value = some value :=
  if_pos fits

/-- A value within both limits passes the check unchanged. -/
theorem signedWord_fits {limit value : Int} (fits : -limit ≤ value ∧ value < limit) :
    signedWord limit value = some value := if_pos fits

/-- A correction that is only made under a condition has to fit only then. -/
theorem ite_fits {α : Type} {condition : Prop} [Decidable condition] {corrected : Option α}
    {value other : α} (fits : condition → corrected = some value) :
    (if condition then corrected else some other) = some (if condition then value else other) := by
  split
  · rename_i holds
    exact fits holds
  · rfl

/-- The binary sum with every intermediate value checked. -/
def add (register value : UInt8) (carry : Bool) : Option Sum := do
  let sum ← word 0x10000 (register.toNat + value.toNat)
  let sum ← (if carry then word 0x10000 (sum + 1) else some sum)
  let result := UInt8.ofNat sum
  return ⟨result, decide (256 ≤ sum), signsDisagree register value result⟩

/-- The difference is the sum with the complement. -/
def subtract (register value : UInt8) (carry : Bool) : Option Sum := add register (~~~value) carry

/-- The decimal sum with every intermediate value checked. -/
def addDecimal (register value : UInt8) (carry : Bool) : Option Sum := do
  let low ← word 0x10000 (lowDigit register + lowDigit value)
  let low ← word 0x10000 (low + carry.toNat)
  let low ← (if 9 < low then word 0x10000 (low + 6) else some low)
  let high ← word 0x10000 (highDigit register + highDigit value)
  let high ← word 0x10000 (high + (decide (15 < low)).toNat)
  let corrected ← (if 9 < high then word 0x10000 (high + 6) else some high)
  return ⟨ofDigits corrected low, decide (15 < corrected),
    signsDisagree register value (ofDigits high 0)⟩

def subtractDecimal (register value : UInt8) (carry : Bool) : Option Sum := do
  let binary ← subtract register value carry
  let low ← signedWord 0x8000 ((lowDigit register : Int) - lowDigit value)
  let low ← signedWord 0x8000 (low - (!carry).toNat)
  let high ← signedWord 0x8000 ((highDigit register : Int) - highDigit value)
  let high ← (if low < 0 then signedWord 0x8000 (high - 1) else some high)
  let low ← (if low < 0 then signedWord 0x8000 (low - 6) else some low)
  let high ← (if high < 0 then signedWord 0x8000 (high - 6) else some high)
  return { binary with result := ofDigits (high % 16).toNat (low % 16).toNat }

/-- No intermediate value of a binary sum leaves its word. -/
theorem add_eq (register value : UInt8) (carry : Bool) :
    add register value carry = some (Arithmetic.add register value carry) := by
  have left := register.toNat_lt
  have right := value.toNat_lt
  have first : word 0x10000 (register.toNat + value.toNat) = some _ := word_fits (by omega)
  have second : (if carry then word 0x10000 (register.toNat + value.toNat + 1) else
      some (register.toNat + value.toNat)) = some _ := ite_fits fun _ => word_fits (by omega)
  have sum : (if carry then register.toNat + value.toNat + 1 else register.toNat + value.toNat) =
      register.toNat + value.toNat + carry.toNat := by
    cases carry <;> rfl
  rw [add, first, Option.bind_eq_bind, Option.bind_some, second, sum]
  rfl

theorem subtract_eq (register value : UInt8) (carry : Bool) :
    subtract register value carry = some (Arithmetic.subtract register value carry) :=
  add_eq register (~~~value) carry

theorem lowDigit_le (value : UInt8) : lowDigit value ≤ 15 := by
  rw [lowDigit]
  omega

theorem highDigit_le (value : UInt8) : highDigit value ≤ 15 := by
  have below := value.toNat_lt
  rw [highDigit]
  omega

/-- No intermediate value of a decimal sum leaves its word, whatever the bytes are. -/
theorem addDecimal_eq (register value : UInt8) (carry : Bool) :
    addDecimal register value carry = some (Arithmetic.addDecimal register value carry) := by
  have lows := And.intro (lowDigit_le register) (lowDigit_le value)
  have highs := And.intro (highDigit_le register) (highDigit_le value)
  have one := carry.toNat_le
  have lowDigits : word 0x10000 (lowDigit register + lowDigit value) = some _ :=
    word_fits (by omega)
  have highDigits : word 0x10000 (highDigit register + highDigit value) = some _ :=
    word_fits (by omega)
  rw [addDecimal, Arithmetic.addDecimal]
  generalize low : lowDigit register + lowDigit value + carry.toNat = sum
  have lowFits : word 0x10000 sum = some sum := word_fits (by omega)
  have lowCorrect : (if 9 < sum then word 0x10000 (sum + 6) else some sum) = some (correct sum) :=
    ite_fits fun _ => word_fits (by omega)
  have carried := (decide (15 < correct sum)).toNat_le
  generalize high : highDigit register + highDigit value + (decide (15 < correct sum)).toNat =
    total
  have highFits : word 0x10000 total = some total := word_fits (by omega)
  have highCorrect : (if 9 < total then word 0x10000 (total + 6) else some total) =
      some (correct total) := ite_fits fun _ => word_fits (by omega)
  simp only [Option.bind_eq_bind, Option.bind_some, lowDigits, low, lowFits, lowCorrect,
    highDigits, high, highFits, highCorrect]
  rfl

theorem subtractDecimal_eq (register value : UInt8) (carry : Bool) :
    subtractDecimal register value carry =
      some (Arithmetic.subtractDecimal register value carry) := by
  have lows := And.intro (lowDigit_le register) (lowDigit_le value)
  have highs := And.intro (highDigit_le register) (highDigit_le value)
  have one := (!carry).toNat_le
  have lowDigits : signedWord 0x8000 ((lowDigit register : Int) - lowDigit value) = some _ :=
    signedWord_fits (by omega)
  have highDigits : signedWord 0x8000 ((highDigit register : Int) - highDigit value) = some _ :=
    signedWord_fits (by omega)
  rw [subtractDecimal, subtract_eq, Arithmetic.subtractDecimal]
  generalize low : (lowDigit register : Int) - lowDigit value - (!carry).toNat = rest
  generalize high : (highDigit register : Int) - highDigit value = difference at *
  have lowFits : signedWord 0x8000 rest = some rest := signedWord_fits (by omega)
  have borrowed : (if rest < 0 then signedWord 0x8000 (difference - 1) else some difference) =
      some (if rest < 0 then difference - 1 else difference) :=
    ite_fits fun _ => signedWord_fits (by omega)
  have taken : (if rest < 0 then difference - 1 else difference) =
      difference - (decide (rest < 0)).toNat := by
    by_cases below : rest < 0 <;> simp [below]
  have lowCorrect : (if rest < 0 then signedWord 0x8000 (rest - 6) else some rest) =
      some (if rest < 0 then rest - 6 else rest) := ite_fits fun _ => signedWord_fits (by omega)
  have fewer := (decide (rest < 0)).toNat_le
  generalize left : difference - ((decide (rest < 0)).toNat : Int) = total at *
  have highCorrect : (if total < 0 then signedWord 0x8000 (total - 6) else some total) =
      some (if total < 0 then total - 6 else total) := ite_fits fun _ => signedWord_fits (by omega)
  simp only [Option.bind_eq_bind, Option.bind_some, lowDigits, low, lowFits, lowCorrect,
    highDigits, borrowed, taken, highCorrect]
  rfl

/-- The accumulator gets a checked sum, in the numeral system of the decimal flag. -/
def addToA (registers : Registers) (value : UInt8) : Option Registers :=
  registers.keepSum <$>
    if registers.p.decimal then addDecimal registers.a value registers.p.carry
    else add registers.a value registers.p.carry

/-- The accumulator gets a checked difference. -/
def subtractFromA (registers : Registers) (value : UInt8) : Option Registers :=
  registers.keepSum <$>
    if registers.p.decimal then subtractDecimal registers.a value registers.p.carry
    else subtract registers.a value registers.p.carry

/-- Without decimal mode nothing is added; in decimal mode each half is compared after its lowest
bit was added to it, the low half in a byte. -/
def andRotate (registers : Registers) (value : UInt8) : Option Registers :=
  let both := registers.a &&& value
  let rotated := (shiftRight both registers.p.carry).1
  if registers.p.decimal then do
    let low ← word 0x100 (both.toNat % 16 + both.toNat % 2)
    let high ← word 0x10000 (both.toNat / 16 * 16 + both.toNat / 16 % 2 * 16)
    let moved := if low > 5 then (rotated &&& 0xf0) ||| ((rotated + 6) &&& 0x0f) else rotated
    let carry := decide (high > 0x50)
    return { registers with
      a := if carry then moved + 0x60 else moved
      p := { registers.p with
        negative := registers.p.carry
        zero := rotated == 0
        overflow := (both ^^^ rotated).toNat.testBit 6
        carry } }
  else
    return registers.andRotate value

/-- Checked and unchecked additions to the accumulator are the same. -/
theorem addToA_eq (registers : Registers) (value : UInt8) :
    addToA registers value = some (registers.addToA value) := by
  rw [addToA, add_eq, addDecimal_eq, Registers.addToA]
  split <;> rfl

theorem subtractFromA_eq (registers : Registers) (value : UInt8) :
    subtractFromA registers value = some (registers.subtractFromA value) := by
  rw [subtractFromA, subtract_eq, subtractDecimal_eq, Registers.subtractFromA]
  split <;> rfl

/-- No intermediate value of a rotation with its decimal fix-ups leaves its word. -/
theorem andRotate_eq (registers : Registers) (value : UInt8) :
    andRotate registers value = some (registers.andRotate value) := by
  have below := (registers.a &&& value).toNat_lt
  have low : word 0x100 ((registers.a &&& value).toNat % 16 + (registers.a &&& value).toNat % 2) =
      some _ := word_fits (by omega)
  have high : word 0x10000 ((registers.a &&& value).toNat / 16 * 16 +
      (registers.a &&& value).toNat / 16 % 2 * 16) = some _ := word_fits (by omega)
  by_cases decimal : registers.p.decimal
  · simp only [andRotate, Registers.andRotate, decimal, if_true, low, high, Option.bind_eq_bind,
      Option.bind_some, Option.pure_def]
  · simp only [andRotate, decimal, Bool.false_eq_true, if_false, Option.pure_def]

end EightBit.Checked
