import EightBit.Execution.Operation

/-
The processor: registers, a cycle counter and the latch of requested interrupts. A step runs one
instruction and then takes the most urgent request that the status allows.
-/

namespace EightBit

structure Processor where
  registers : Registers
  cycles : UInt64
  pending : Pending
  deriving DecidableEq, Repr

/-- A plain copy of the processor for save states. -/
structure ProcessorImage where
  a : UInt8
  x : UInt8
  y : UInt8
  s : UInt8
  pc : UInt16
  p : UInt8
  cycles : UInt64
  pending : UInt8
  deriving DecidableEq, Repr

namespace Processor

def initial : Processor := ⟨.initial, 0, .none⟩

def spend (processor : Processor) (cycles : Nat) : Processor :=
  { processor with cycles := processor.cycles + UInt64.ofNat cycles }

def request (processor : Processor) (interrupt : Interrupt) : Processor :=
  { processor with pending := processor.pending.raise interrupt }

def withdraw (processor : Processor) (interrupt : Interrupt) : Processor :=
  { processor with pending := processor.pending.clear interrupt }

/-- Pending requests are dropped. -/
def reset (processor : Processor) : Transaction (Nat × Processor) := do
  let registers ← Interrupt.reset.enter processor.registers
  Transaction.note (.reset registers.pc)
  return (Interrupt.cycles, { processor with registers, pending := .none }.spend Interrupt.cycles)

/-- The request that may be taken now, if there is one, is entered. -/
def serve (processor : Processor) : Transaction (Nat × Processor) := do
  match processor.pending.next? processor.registers.p with
  | none => return (0, processor)
  | some interrupt =>
      Transaction.note (.servicing interrupt processor.registers.pc)
      let registers ← interrupt.enter processor.registers
      let pending := processor.pending.afterTaking interrupt
      return (Interrupt.cycles, { processor with registers, pending })

/-- The cycles of the instruction and of the interrupt taken after it. An opcode that locks up the
processor is reported, and nothing changes. -/
def step (processor : Processor) : Transaction (Except Fault Nat × Processor) := do
  let pc := processor.registers.pc
  let opcode ← Transaction.readByte pc
  let instruction := Instruction.ofOpcode opcode
  if instruction.isValid then
    let (registers, spent) ← instruction.execute processor.registers
    let (served, processor) ← { processor with registers }.serve
    let cycles := spent + served
    return (.ok cycles, processor.spend cycles)
  else
    Transaction.note (.halted opcode pc)
    return (.error (.invalidOpcode opcode pc), processor)

def image (processor : Processor) : ProcessorImage :=
  let registers := processor.registers
  { a := registers.a
    x := registers.x
    y := registers.y
    s := registers.s
    pc := registers.pc
    p := registers.p.toByte
    cycles := processor.cycles
    pending := processor.pending.toByte }

/-- The status comes back as if it were pulled from the stack. -/
def ofImage (image : ProcessorImage) : Processor where
  registers :=
    { a := image.a
      x := image.x
      y := image.y
      p := .pulled image.p
      pc := image.pc
      s := image.s }
  cycles := image.cycles
  pending := .ofByte image.pending

end Processor

end EightBit
