import EightBit.Arithmetic.Decimal
import EightBit.Arithmetic.Shift
import EightBit.Register.File

/-
What instructions compute: changes of the register file and of single bytes, without memory.
-/

namespace EightBit

namespace Registers

open Arithmetic

def loadA (registers : Registers) (value : UInt8) : Registers :=
  { registers with a := value, p := registers.p.describe value }

def loadX (registers : Registers) (value : UInt8) : Registers :=
  { registers with x := value, p := registers.p.describe value }

def loadY (registers : Registers) (value : UInt8) : Registers :=
  { registers with y := value, p := registers.p.describe value }

def loadAX (registers : Registers) (value : UInt8) : Registers :=
  (registers.loadA value).loadX value

/-- The flags describe the result that is kept, also in decimal mode. -/
def keepSum (registers : Registers) (sum : Sum) : Registers :=
  { registers with p := { registers.p with carry := sum.carry, overflow := sum.overflow } }.loadA
    sum.result

def addToA (registers : Registers) (value : UInt8) : Registers :=
  registers.keepSum <|
    if registers.p.decimal then addDecimal registers.a value registers.p.carry
    else add registers.a value registers.p.carry

def subtractFromA (registers : Registers) (value : UInt8) : Registers :=
  registers.keepSum <|
    if registers.p.decimal then subtractDecimal registers.a value registers.p.carry
    else subtract registers.a value registers.p.carry

def andA (registers : Registers) (value : UInt8) : Registers :=
  registers.loadA (registers.a &&& value)

def orA (registers : Registers) (value : UInt8) : Registers :=
  registers.loadA (registers.a ||| value)

def xorA (registers : Registers) (value : UInt8) : Registers :=
  registers.loadA (registers.a ^^^ value)

/-- A comparison only sets flags. -/
def compareWith (registers : Registers) (register value : UInt8) : Registers :=
  let (difference, carry) := compareUnsigned register value
  { registers with p := { registers.p with carry }.describe difference }

def compareA (registers : Registers) (value : UInt8) : Registers :=
  registers.compareWith registers.a value

def compareX (registers : Registers) (value : UInt8) : Registers :=
  registers.compareWith registers.x value

def compareY (registers : Registers) (value : UInt8) : Registers :=
  registers.compareWith registers.y value

/-- Zero tells whether the accumulator and the value share a bit; the two high bits are copied. -/
def testBits (registers : Registers) (value : UInt8) : Registers :=
  { registers with p := { registers.p with
      zero := registers.a &&& value == 0
      overflow := value.toNat.testBit 6
      negative := isNegative value } }

def ignore (registers : Registers) (_ : UInt8) : Registers := registers

def setFlag (flag : Flag) (on : Bool) (registers : Registers) : Registers :=
  { registers with p := registers.p.set flag on }

/-- The accumulator takes the conjunction, and the carry copies its sign. -/
def andCarry (registers : Registers) (value : UInt8) : Registers :=
  let both := registers.andA value
  { both with p := { both.p with carry := both.p.negative } }

def andShift (registers : Registers) (value : UInt8) : Registers :=
  let (shifted, carry) := shiftRight (registers.a &&& value) false
  { registers with p := { registers.p with carry } }.loadA shifted

/-- The conjunction is rotated to the right. Carry and overflow come from bits 6 and 5 of the
rotated byte. In decimal mode each half is moved on where it has grown past five, carry tells
whether the high half was, and the other flags stay those of the rotated byte. -/
def andRotate (registers : Registers) (value : UInt8) : Registers :=
  let both := registers.a &&& value
  let rotated := (shiftRight both registers.p.carry).1
  if registers.p.decimal then
    let moved :=
      if both.toNat % 16 + both.toNat % 2 > 5 then
        (rotated &&& 0xf0) ||| ((rotated + 6) &&& 0x0f)
      else
        rotated
    let carry := decide (both.toNat / 16 * 16 + both.toNat / 16 % 2 * 16 > 0x50)
    { registers with
      a := if carry then moved + 0x60 else moved
      p := { registers.p with
        negative := registers.p.carry
        zero := rotated == 0
        overflow := (both ^^^ rotated).toNat.testBit 6
        carry } }
  else
    { registers with p := { registers.p with
        carry := rotated.toNat.testBit 6
        overflow := rotated.toNat.testBit 6 != rotated.toNat.testBit 5 } }.loadA rotated

/-- The bits that some parts add to the accumulator before it is combined with an immediate. -/
def unstableBits : UInt8 := 0xee

def unstableLoadA (registers : Registers) (value : UInt8) : Registers :=
  registers.loadA ((registers.a ||| unstableBits) &&& registers.x &&& value)

def unstableLoadAX (registers : Registers) (value : UInt8) : Registers :=
  registers.loadAX ((registers.a ||| unstableBits) &&& value)

def subtractFromX (registers : Registers) (value : UInt8) : Registers :=
  let (difference, carry) := compareUnsigned (registers.a &&& registers.x) value
  { registers with p := { registers.p with carry } }.loadX difference

/-- The value goes through the stack pointer into both registers. -/
def loadThroughS (registers : Registers) (value : UInt8) : Registers :=
  let shared := value &&& registers.s
  { registers with s := shared }.loadAX shared

def aAndX (registers : Registers) : UInt8 := registers.a &&& registers.x

end Registers

/-- A change of one byte that may read and set flags. -/
abbrev Modification := Status → UInt8 → UInt8 × Status

namespace Modification

open Arithmetic

def moved (status : Status) (result : UInt8 × Bool) : UInt8 × Status :=
  (result.1, { status with carry := result.2 }.describe result.1)

def shiftLeft : Modification := fun status value => moved status (Arithmetic.shiftLeft value false)

def rotateLeft : Modification := fun status value =>
  moved status (Arithmetic.shiftLeft value status.carry)

def shiftRight : Modification := fun status value =>
  moved status (Arithmetic.shiftRight value false)

def rotateRight : Modification := fun status value =>
  moved status (Arithmetic.shiftRight value status.carry)

def increment : Modification := fun status value => (value + 1, status.describe (value + 1))

def decrement : Modification := fun status value => (value - 1, status.describe (value - 1))

end Modification

end EightBit
