import EightBit.Arithmetic.Binary

/-
The status register: eight flags that are packed into one byte when they go on the stack.
-/

namespace EightBit

inductive Flag where
  | negative
  | overflow
  | reserved
  | breakMark
  | decimal
  | interruptDisable
  | zero
  | carry
  deriving DecidableEq, Repr

namespace Flag

def bit : Flag → Nat
  | carry => 0
  | zero => 1
  | interruptDisable => 2
  | decimal => 3
  | breakMark => 4
  | reserved => 5
  | overflow => 6
  | negative => 7

/-- Each flag is known by one letter, in either case. -/
def ofLetter? : Char → Option Flag
  | 'n' | 'N' => some negative
  | 'v' | 'V' => some overflow
  | 'u' | 'U' => some reserved
  | 'b' | 'B' => some breakMark
  | 'd' | 'D' => some decimal
  | 'i' | 'I' => some interruptDisable
  | 'z' | 'Z' => some zero
  | 'c' | 'C' => some carry
  | _ => none

def mask (flag : Flag) : UInt8 := UInt8.ofNat (1 <<< flag.bit)

end Flag

structure Status where
  negative : Bool
  overflow : Bool
  reserved : Bool
  breakMark : Bool
  decimal : Bool
  interruptDisable : Bool
  zero : Bool
  carry : Bool
  deriving DecidableEq, Repr

namespace Status

def has (status : Status) : Flag → Bool
  | .negative => status.negative
  | .overflow => status.overflow
  | .reserved => status.reserved
  | .breakMark => status.breakMark
  | .decimal => status.decimal
  | .interruptDisable => status.interruptDisable
  | .zero => status.zero
  | .carry => status.carry

def set (status : Status) (flag : Flag) (on : Bool) : Status :=
  match flag with
  | .negative => { status with negative := on }
  | .overflow => { status with overflow := on }
  | .reserved => { status with reserved := on }
  | .breakMark => { status with breakMark := on }
  | .decimal => { status with decimal := on }
  | .interruptDisable => { status with interruptDisable := on }
  | .zero => { status with zero := on }
  | .carry => { status with carry := on }

def toByte (status : Status) : UInt8 :=
  UInt8.ofNat (128 * status.negative.toNat + 64 * status.overflow.toNat +
    32 * status.reserved.toNat + 16 * status.breakMark.toNat + 8 * status.decimal.toNat +
    4 * status.interruptDisable.toNat + 2 * status.zero.toNat + status.carry.toNat)

/-- The flags of a byte as they stand in it. -/
def unpack (byte : UInt8) : Status where
  negative := byte.toNat.testBit 7
  overflow := byte.toNat.testBit 6
  reserved := byte.toNat.testBit 5
  breakMark := byte.toNat.testBit 4
  decimal := byte.toNat.testBit 3
  interruptDisable := byte.toNat.testBit 2
  zero := byte.toNat.testBit 1
  carry := byte.toNat.testBit 0

/-- The reserved bit of the register always reads as set. -/
def ofByte (byte : UInt8) : Status := { unpack byte with reserved := true }

/-- The break mark only lives on the stack, so a pulled byte loses it. -/
def pulled (byte : UInt8) : Status := { ofByte byte with breakMark := false }

/-- The byte pushed for this status: the break mark tells instructions from interrupts. -/
def pushed (status : Status) (mark : Bool) : UInt8 :=
  { status with reserved := true, breakMark := mark }.toByte

def initial : Status := ofByte 0

/-- Zero and negative describe the byte. -/
def describe (status : Status) (value : UInt8) : Status :=
  { status with zero := value == 0, negative := Arithmetic.isNegative value }

/-- A letter for each flag but the reserved one, a capital where the flag is set. -/
def text (status : Status) : String :=
  let letter (on : Bool) (set clear : Char) : Char := if on then set else clear
  let letters := String.ofList
    [letter status.negative 'N' 'n', letter status.overflow 'V' 'v', '_',
      letter status.breakMark 'B' 'b', letter status.decimal 'D' 'd',
      letter status.interruptDisable 'I' 'i', letter status.zero 'Z' 'z',
      letter status.carry 'C' 'c']
  s!"Status({letters})"

@[simp] theorem unpack_toByte (status : Status) : unpack status.toByte = status := by
  obtain ⟨n, v, u, b, d, i, z, c⟩ := status
  cases n <;> cases v <;> cases u <;> cases b <;> cases d <;> cases i <;> cases z <;> cases c <;>
    decide

end Status

end EightBit
