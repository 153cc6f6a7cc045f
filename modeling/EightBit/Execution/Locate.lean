import EightBit.Opcode.Mode
import EightBit.Register.File
import EightBit.Transaction

/-
Finding the operand of an instruction. The program counter starts just past the opcode and ends
past the operand bytes.
-/

namespace EightBit

inductive Operand where
  /-- The accumulator, which also stands for the missing operand of implied mode. -/
  | accumulator
  | memory (address : Address)
  deriving DecidableEq, Repr

namespace Operand

def address? : Operand → Option Address
  | accumulator => none
  | memory address => some address

def read (operand : Operand) (registers : Registers) : Transaction UInt8 :=
  match operand with
  | accumulator => pure registers.a
  | memory address => Transaction.readByte address

def write (operand : Operand) (value : UInt8) (registers : Registers) : Transaction Registers :=
  match operand with
  | accumulator => pure { registers with a := value }
  | memory address => do
      Transaction.writeByte address value
      return registers

end Operand

/-- An operand, and whether indexing or branching led into another page. -/
structure Location where
  operand : Operand
  pageCrossed : Bool
  deriving DecidableEq, Repr

namespace Location

def accumulator : Location := ⟨.accumulator, false⟩

def direct (address : Address) : Location := ⟨.memory address, false⟩

def indexed (base address : Address) : Location := ⟨.memory address, !base.samePage address⟩

/-- Crossing a page costs one cycle. -/
def penalty (location : Location) : Nat := location.pageCrossed.toNat

end Location

/-- The byte at the program counter, which moves on. -/
def fetch (registers : Registers) : Transaction (UInt8 × Registers) := do
  let value ← Transaction.readByte registers.pc
  return (value, { registers with pc := registers.pc.next })

def fetchAddress (registers : Registers) : Transaction (Address × Registers) := do
  let (low, registers) ← fetch registers
  let (high, registers) ← fetch registers
  return (Address.ofBytes low high, registers)

/-- The high byte is read without carrying into the next page. -/
def readPointer (pointer : Address) : Transaction Address := do
  let low ← Transaction.readByte pointer
  let high ← Transaction.readByte pointer.nextInPage
  return Address.ofBytes low high

namespace Mode

def locate (mode : Mode) (registers : Registers) : Transaction (Location × Registers) :=
  match mode with
  | accumulator | implied => return (.accumulator, registers)
  | immediate => return (.direct registers.pc, { registers with pc := registers.pc.next })
  | zeroPage => do
      let (operand, registers) ← fetch registers
      return (.direct (.zeroPage operand), registers)
  | zeroPageX => do
      let (operand, registers) ← fetch registers
      return (.direct (.zeroPage (operand + registers.x)), registers)
  | zeroPageY => do
      let (operand, registers) ← fetch registers
      return (.direct (.zeroPage (operand + registers.y)), registers)
  | relative => do
      let (displacement, registers) ← fetch registers
      let target := registers.pc.displace displacement.toInt8
      return (.indexed registers.pc target, registers)
  | absolute => do
      let (address, registers) ← fetchAddress registers
      return (.direct address, registers)
  | absoluteX => do
      let (base, registers) ← fetchAddress registers
      return (.indexed base (base.advance registers.x), registers)
  | absoluteY => do
      let (base, registers) ← fetchAddress registers
      return (.indexed base (base.advance registers.y), registers)
  | indirect => do
      let (pointer, registers) ← fetchAddress registers
      let address ← readPointer pointer
      return (.direct address, registers)
  | indexedIndirect => do
      let (operand, registers) ← fetch registers
      let address ← readPointer (.zeroPage (operand + registers.x))
      return (.direct address, registers)
  | indirectIndexed => do
      let (operand, registers) ← fetch registers
      let base ← readPointer (.zeroPage operand)
      return (.indexed base (base.advance registers.y), registers)

end Mode

end EightBit
