import EightBit.Register.File
import EightBit.Transaction

/-
The stack, and the entry into an interrupt handler, which saves its state there.
-/

namespace EightBit

/-- The byte is written before the stack pointer moves down. -/
def push (value : UInt8) (registers : Registers) : Transaction Registers := do
  Transaction.writeByte registers.s.address value
  return { registers with s := registers.s - 1 }

/-- The stack pointer moves up before the byte is read. -/
def pull (registers : Registers) : Transaction (UInt8 × Registers) := do
  let registers := { registers with s := registers.s + 1 }
  let value ← Transaction.readByte registers.s.address
  return (value, registers)

/-- The high byte goes first, so the low byte lies below it. -/
def pushAddress (address : Address) (registers : Registers) : Transaction Registers := do
  let registers ← push address.hi registers
  push address.lo registers

def pullAddress (registers : Registers) : Transaction (Address × Registers) := do
  let (low, registers) ← pull registers
  let (high, registers) ← pull registers
  return (Address.ofBytes low high, registers)

/-- The low byte comes first in memory. -/
def readAddress (address : Address) : Transaction Address := do
  let low ← Transaction.readByte address
  let high ← Transaction.readByte address.next
  return Address.ofBytes low high

namespace Interrupt

/-- The program counter and the status go on the stack and further requests are disabled; a reset
starts from the power-up registers instead. Either way the vector names the handler. -/
def enter (interrupt : Interrupt) (registers : Registers) : Transaction Registers := do
  let registers ←
    if interrupt = .reset then
      pure registers.powerUp
    else do
      let status := registers.p.pushed interrupt.pushesBreakMark
      let registers ← pushAddress registers.pc registers
      let registers ← push status registers
      pure { registers with p := registers.p.set .interruptDisable true }
  let handler ← readAddress interrupt.vector
  return { registers with pc := handler }

end Interrupt

end EightBit
