import EightBit.Arithmetic.Binary

/-
Addition and subtraction of packed decimal bytes, one digit in each half of a byte. The rules give
a result for every pair of bytes, also for halves that are no decimal digits.
-/

namespace EightBit.Arithmetic

def lowDigit (value : UInt8) : Nat := value.toNat % 16

def highDigit (value : UInt8) : Nat := value.toNat / 16

def ofDigits (high low : Nat) : UInt8 := UInt8.ofNat (16 * (high % 16) + low % 16)

/-- A half above nine is moved past the six unused codes. -/
def correct (digit : Nat) : Nat := if 9 < digit then digit + 6 else digit

/-- The overflow is that of the high half before its correction, the carry that of the corrected
one. The low half carries at most one into the high half. -/
def addDecimal (register value : UInt8) (carry : Bool) : Sum :=
  let low := correct (lowDigit register + lowDigit value + carry.toNat)
  let high := highDigit register + highDigit value + (decide (15 < low)).toNat
  let corrected := correct high
  ⟨ofDigits corrected low, decide (15 < corrected),
    signsDisagree register value (ofDigits high 0)⟩

/-- Only the result is corrected; carry and overflow are those of the binary subtraction. A half
that borrows is moved back past the six unused codes. -/
def subtractDecimal (register value : UInt8) (carry : Bool) : Sum :=
  let binary := subtract register value carry
  let low := (lowDigit register : Int) - lowDigit value - (!carry).toNat
  let high := (highDigit register : Int) - highDigit value - (decide (low < 0)).toNat
  let low := if low < 0 then low - 6 else low
  let high := if high < 0 then high - 6 else high
  { binary with result := ofDigits (high % 16).toNat (low % 16).toNat }

end EightBit.Arithmetic
