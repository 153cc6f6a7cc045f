import EightBit.Arithmetic.Binary

/-
Shifts and rotations of a byte by one place. Each yields the moved byte and the bit that left it.
-/

namespace EightBit.Arithmetic

/-- The bit moved in at the right is `fill`. -/
def shiftLeft (value : UInt8) (fill : Bool) : UInt8 × Bool :=
  (UInt8.ofNat (2 * value.toNat + fill.toNat), isNegative value)

/-- The bit moved in at the left is `fill`. -/
def shiftRight (value : UInt8) (fill : Bool) : UInt8 × Bool :=
  (UInt8.ofNat (value.toNat / 2 + 128 * fill.toNat), value.toNat % 2 == 1)

end EightBit.Arithmetic
