/-
Binary addition and subtraction of bytes with carry, and unsigned comparison.
-/

namespace EightBit.Arithmetic

/-- The byte an addition leaves, with the carry out of it and the signed overflow. -/
structure Sum where
  result : UInt8
  carry : Bool
  overflow : Bool
  deriving DecidableEq, Repr

/-- Bit 7 is the sign of a byte read as two's complement. -/
def isNegative (value : UInt8) : Bool := decide (128 ≤ value.toNat)

/-- The sign is wrong exactly if both operands have one sign and the result has the other. -/
def signsDisagree (register value result : UInt8) : Bool :=
  isNegative register == isNegative value && isNegative result != isNegative register

def add (register value : UInt8) (carry : Bool) : Sum :=
  let sum := register.toNat + value.toNat + carry.toNat
  let result := UInt8.ofNat sum
  ⟨result, decide (256 ≤ sum), signsDisagree register value result⟩

/-- Subtraction adds the complement; the carry means that nothing was borrowed. -/
def subtract (register value : UInt8) (carry : Bool) : Sum :=
  add register (~~~value) carry

/-- The comparison yields the difference and whether the register is not below the value. -/
def compareUnsigned (register value : UInt8) : UInt8 × Bool :=
  (register - value, decide (value.toNat ≤ register.toNat))

end EightBit.Arithmetic
